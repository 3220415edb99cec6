-- SUMMARY: Retained messages are the same after every number of restarts exactly if the local time of the process is UTC, or nothing is retained.
import Mathlib.Data.Nat.Digits.Defs
import NioevMqtt.Library.Calendar
import NioevMqtt.Broker.ApplicationState

/-!
# Retained messages in the database

The retained messages are written to a table, and read from it when the broker starts. The table
has the time of a message as a text: it is written as UTC and read as local time.
-/

namespace NioevMqtt

open Calendar

/-- A retained message with its `timestamp`, in seconds since the epoch. -/
structure TimedMessage extends RetainedMessage where
  timestamp : Int
deriving DecidableEq

abbrev TimedMessages := AList fun _ : ByteString => TimedMessage

/-! ## Times -/

/-- `std::put_time` and `std::get_time` with the broker's formats, which are taken to be inverse
to each other. -/
class TimeFormats where
  /-- `"%Y-%m-%d %H-%M-%S.000"`. -/
  put_time : CalendarTime → ByteString
  /-- `"%Y-%m-%d %H-%M-%S"`. -/
  get_time : ByteString → CalendarTime
  get_put : ∀ {c : CalendarTime}, c.Valid → get_time (put_time c) = c

def gmtime_r (timestamp : Int) : CalendarTime := ofSeconds timestamp

/-- The local time is `offset` seconds ahead of UTC. -/
def mktime (offset : Int) (c : CalendarTime) : Int := toSeconds c - offset

/-! ## The formats -/

def decimal (n : Nat) : ByteString := (Nat.digits 10 n).reverse.map fun d => UInt8.ofNat (48 + d)

def ofDecimal (text : ByteString) : Nat :=
  Nat.ofDigits 10 (text.reverse.map fun b => b.toNat - 48)

def yearText (year : Int) : ByteString :=
  if year < 0 then 0x2D :: decimal year.natAbs else decimal year.natAbs

def ofYearText : ByteString → Int
  | [] => 0
  | b :: text => if b = 0x2D then -ofDecimal text else ofDecimal (b :: text)

def twoDigits (n : Int) : ByteString :=
  [UInt8.ofNat (48 + n.toNat / 10), UInt8.ofNat (48 + n.toNat % 10)]

def ofTwoDigits (b c : UInt8) : Int := (b.toNat - 48) * 10 + (c.toNat - 48)

theorem ofDecimal_decimal (n : Nat) : ofDecimal (decimal n) = n := by
  have hdigits : (Nat.digits 10 n).map (fun d => (UInt8.ofNat (48 + d)).toNat - 48) =
      Nat.digits 10 n := by
    refine (List.map_congr_left fun d hd => ?_).trans (List.map_id _)
    have hlt : d < 10 := Nat.digits_lt_base (by decide) hd
    have htoNat : (UInt8.ofNat (48 + d)).toNat = 48 + d :=
      UInt8.toNat_ofNat_of_lt' (by show _ < 256; omega)
    rw [htoNat, Nat.add_sub_cancel_left, id]
  rw [ofDecimal, decimal, ← List.map_reverse, List.reverse_reverse, List.map_map]
  exact (congrArg _ hdigits).trans (Nat.ofDigits_digits 10 n)

theorem ofYearText_yearText (year : Int) : ofYearText (yearText year) = year := by
  unfold yearText
  split
  · rw [ofYearText, if_pos rfl, ofDecimal_decimal]
    omega
  · have hback := ofDecimal_decimal year.natAbs
    cases htext : decimal year.natAbs with
    | nil =>
        rw [htext] at hback
        have hzero : year.natAbs = 0 := hback.symm
        rw [ofYearText]
        omega
    | cons b text =>
        have hb : b ≠ 0x2D := by
          have hmem : b ∈ decimal year.natAbs := htext ▸ List.mem_cons_self
          obtain ⟨d, hd, rfl⟩ := List.mem_map.mp hmem
          have hlt : d < 10 := Nat.digits_lt_base (by decide) (List.mem_reverse.mp hd)
          intro heq
          have htoNat : (UInt8.ofNat (48 + d)).toNat = 48 + d :=
            UInt8.toNat_ofNat_of_lt' (by show _ < 256; omega)
          rw [heq] at htoNat
          have hminus : (0x2D : UInt8).toNat = 45 := rfl
          omega
        rw [ofYearText, if_neg hb, ← htext, hback]
        omega

theorem ofTwoDigits_twoDigits {n : Int} (h : 0 ≤ n ∧ n ≤ 99) :
    ofTwoDigits (UInt8.ofNat (48 + n.toNat / 10)) (UInt8.ofNat (48 + n.toNat % 10)) = n := by
  have htens : (UInt8.ofNat (48 + n.toNat / 10)).toNat = 48 + n.toNat / 10 :=
    UInt8.toNat_ofNat_of_lt' (by show _ < 256; omega)
  have hones : (UInt8.ofNat (48 + n.toNat % 10)).toNat = 48 + n.toNat % 10 :=
    UInt8.toNat_ofNat_of_lt' (by show _ < 256; omega)
  rw [ofTwoDigits, htens, hones]
  omega

/-- The text is read from its end, where the fields have their places. -/
@[reducible] def TimeFormats.standard : TimeFormats where
  put_time c := yearText c.year ++ 0x2D :: twoDigits c.month ++ 0x2D :: twoDigits c.day ++
    0x20 :: twoDigits c.hour ++ 0x2D :: twoDigits c.minute ++ 0x2D :: twoDigits c.second ++
    [0x2E, 0x30, 0x30, 0x30]
  get_time text :=
    match text.reverse with
    | _ :: _ :: _ :: _ :: s :: s' :: _ :: m :: m' :: _ :: h :: h' :: _ :: d :: d' :: _ :: n ::
        n' :: _ :: year =>
      { year := ofYearText year.reverse, month := ofTwoDigits n' n, day := ofTwoDigits d' d
        hour := ofTwoDigits h' h, minute := ofTwoDigits m' m, second := ofTwoDigits s' s }
    | _ => ⟨⟨0, 0, 0⟩, 0, 0, 0⟩
  get_put := by
    intro c hc
    obtain ⟨⟨hmonth, hday⟩, hhour, hminute, hsecond⟩ := hc
    simp only [twoDigits, List.reverse_append, List.reverse_cons, List.reverse_nil,
      List.nil_append, List.cons_append, List.append_assoc, List.reverse_reverse,
      ofYearText_yearText]
    rw [ofTwoDigits_twoDigits (by omega), ofTwoDigits_twoDigits (by omega),
      ofTwoDigits_twoDigits (by omega), ofTwoDigits_twoDigits (by omega),
      ofTwoDigits_twoDigits (by omega)]

/-! ## The table -/

/-- A row of `retained_msg`. -/
structure RetainedRow where
  topic : ByteString
  payload : List UInt8
  timestamp : ByteString
  qos : Int
deriving DecidableEq

section

variable [TimeFormats]

/-- The values that are bound for a message. -/
def retainedRow (msg : Sigma fun _ : ByteString => TimedMessage) : RetainedRow where
  topic := msg.1
  payload := msg.2.payload
  timestamp := TimeFormats.put_time (gmtime_r msg.2.timestamp)
  qos := msg.2.qos.toUInt8.toNat

/-- The rows of the table after it. -/
def syncRetainedMessagesToDb (messages : TimedMessages) : List RetainedRow :=
  messages.entries.map retainedRow

def RetainedRow.message (offset : Int) (row : RetainedRow) : TimedMessage where
  payload := row.payload
  timestamp := mktime offset (TimeFormats.get_time row.timestamp)
  qos := QoS.ofUInt8 (UInt8.ofInt row.qos)
  properties := []

/-- `emplace` keeps what is there. -/
def emplaceRow (offset : Int) (messages : TimedMessages) (row : RetainedRow) : TimedMessages :=
  if row.topic ∈ messages then messages else messages.insert row.topic (row.message offset)

/-- What the constructor makes of the rows. -/
def loadRetainedMessages (offset : Int) (rows : List RetainedRow) : TimedMessages :=
  rows.foldl (emplaceRow offset) ∅

/-- What is retained after so many restarts. The rows may be selected in any order. -/
inductive Restarts (offset : Int) (messages : TimedMessages) : Nat → TimedMessages → Prop where
  | none : Restarts offset messages 0 messages
  | restart {n : Nat} {retained : TimedMessages} {rows : List RetainedRow}
      (before : Restarts offset messages n retained)
      (selected : rows.Perm (syncRetainedMessagesToDb retained)) :
      Restarts offset messages (n + 1) (loadRetainedMessages offset rows)

/-! ## The property -/

/-- What is stored of a message. -/
def TimedMessage.stored (msg : TimedMessage) : List UInt8 × QoS × Int :=
  (msg.payload, msg.qos, msg.timestamp)

/-- The topics are the same, and what is stored of their messages. -/
def SameRetained (messages retained : TimedMessages) : Prop :=
  ∀ topic, (retained.lookup topic).map TimedMessage.stored =
    (messages.lookup topic).map TimedMessage.stored

/-- The messages are the same after every number of restarts. -/
def SurvivesRestarts (offset : Int) (messages : TimedMessages) : Prop :=
  ∀ n retained, Restarts offset messages n retained → SameRetained messages retained

/-! ## One restart -/

variable {offset : Int} {messages retained : TimedMessages} {topic : ByteString}
  {msg : TimedMessage}

/-- What a message becomes. -/
def TimedMessage.restarted (offset : Int) (msg : TimedMessage) : TimedMessage :=
  { msg with timestamp := msg.timestamp - offset, properties := [] }

theorem message_retainedRow :
    (retainedRow ⟨topic, msg⟩).message offset = msg.restarted offset := by
  have htime := TimeFormats.get_put (valid_ofSeconds msg.timestamp)
  have hqos : QoS.ofUInt8 (UInt8.ofInt (msg.qos.toUInt8.toNat : Int)) = msg.qos := by
    cases msg.qos <;> rfl
  simp only [RetainedRow.message, retainedRow, TimedMessage.restarted, gmtime_r, mktime, htime,
    toSeconds_ofSeconds, hqos]

theorem lookup_foldl_emplaceRow {rows : List RetainedRow}
    (hnodup : (rows.map RetainedRow.topic).Nodup) :
    (rows.foldl (emplaceRow offset) messages).lookup topic = some msg ↔
      messages.lookup topic = some msg ∨ (messages.lookup topic = none ∧
        ∃ row ∈ rows, row.topic = topic ∧ row.message offset = msg) := by
  induction rows generalizing messages with
  | nil => simp
  | cons row rows ih =>
      rw [List.map_cons, List.nodup_cons] at hnodup
      rw [List.foldl_cons, ih hnodup.2, List.exists_mem_cons_iff, emplaceRow]
      split
      · next hmem =>
          refine or_congr_right (and_congr_right fun hnone => ?_)
          rw [or_iff_right]
          rintro ⟨rfl, -⟩
          exact AList.lookup_eq_none.mp hnone hmem
      · next hnot =>
          have hrow := AList.lookup_eq_none.mpr hnot
          rcases eq_or_ne row.topic topic with rfl | hne
          · have hothers : ¬ ∃ other ∈ rows, other.topic = row.topic ∧
                other.message offset = msg := by
              rintro ⟨other, hother, htopic, -⟩
              exact hnodup.1 (htopic ▸ List.mem_map_of_mem hother)
            simp [AList.lookup_insert, hrow, hothers]
          · rw [AList.lookup_insert_ne hne.symm]
            simp [hne]

/-- Under each topic there is what was retained, as it was stored. -/
theorem lookup_loadRetainedMessages {rows : List RetainedRow}
    (hrows : rows.Perm (syncRetainedMessagesToDb messages)) :
    (loadRetainedMessages offset rows).lookup topic =
      (messages.lookup topic).map (TimedMessage.restarted offset) := by
  have hnodup : (rows.map RetainedRow.topic).Nodup := by
    rw [(hrows.map _).nodup_iff, syncRetainedMessagesToDb, List.map_map]
    exact messages.keys_nodup
  ext msg
  rw [loadRetainedMessages, lookup_foldl_emplaceRow hnodup]
  simp only [AList.lookup_empty, reduceCtorEq, false_or, true_and, hrows.mem_iff,
    syncRetainedMessagesToDb, List.mem_map, Option.map_eq_some_iff]
  constructor
  · rintro ⟨_, ⟨⟨other, stored⟩, hstored, rfl⟩, rfl, rfl⟩
    exact ⟨stored, AList.mem_lookup_iff.mpr hstored, message_retainedRow.symm⟩
  · rintro ⟨stored, hstored, rfl⟩
    exact ⟨_, ⟨⟨topic, stored⟩, AList.mem_lookup_iff.mp hstored, rfl⟩, rfl, message_retainedRow⟩

/-! ## Restarts -/

/-- What is stored, of a message that is so much older. -/
def older (seconds : Int) (stored : List UInt8 × QoS × Int) : List UInt8 × QoS × Int :=
  (stored.1, stored.2.1, stored.2.2 - seconds)

omit [TimeFormats] in
theorem older_zero : older 0 = id := by
  funext stored
  simp [older]

/-- Each restart takes the offset from every timestamp. -/
theorem Restarts.stored {n : Nat} (h : Restarts offset messages n retained) :
    (retained.lookup topic).map TimedMessage.stored =
      ((messages.lookup topic).map TimedMessage.stored).map (older (n * offset)) := by
  induction h with
  | none => simp [older_zero]
  | @restart n retained rows before selected ih =>
      have hstep : TimedMessage.stored ∘ TimedMessage.restarted offset =
          older offset ∘ TimedMessage.stored := rfl
      have holder : older offset ∘ older (n * offset) = older ((n + 1 : Nat) * offset) := by
        funext stored
        simp only [older, Function.comp_apply, Prod.mk.injEq, true_and]
        rw [Nat.cast_succ, add_mul, one_mul, sub_sub]
      rw [lookup_loadRetainedMessages selected, Option.map_map, hstep, ← Option.map_map, ih,
        Option.map_map, holder]

/-- Messages survive exactly if the local time is UTC, or there are none. -/
theorem survivesRestarts_iff (offset : Int) (messages : TimedMessages) :
    SurvivesRestarts offset messages ↔ offset = 0 ∨ messages = ∅ := by
  constructor
  · intro hsurvives
    by_contra hnot
    obtain ⟨hoffset, hne⟩ := not_or.mp hnot
    obtain ⟨⟨topic, msg⟩, hmsg⟩ : ∃ msg, msg ∈ messages.entries :=
      List.exists_mem_of_ne_nil _ fun hnil => hne (AList.ext hnil)
    have hlookup : messages.lookup topic = some msg := AList.mem_lookup_iff.mpr hmsg
    have hbefore : Restarts offset messages 0 messages := .none
    have hrestart := hbefore.restart (.refl _)
    have hsame := hsurvives 1 _ hrestart topic
    rw [hrestart.stored, hlookup] at hsame
    simp only [Option.map_some, Option.some.injEq, older, TimedMessage.stored, Prod.mk.injEq,
      true_and] at hsame
    omega
  · rintro (rfl | rfl) n retained hrestarts topic
    · rw [hrestarts.stored, mul_zero, older_zero, Option.map_id]
      rfl
    · rw [hrestarts.stored, AList.lookup_empty]
      rfl

end

/-- A message retained at the epoch. -/
def retainedAtEpoch : TimedMessages :=
  AList.singleton [0x61] ⟨⟨[0x62], .qos1, []⟩, 0⟩

theorem survivesRestarts_iff_retainedAtEpoch :
    @SurvivesRestarts TimeFormats.standard 3600 retainedAtEpoch ↔
      (3600 : Int) = 0 ∨ retainedAtEpoch = ∅ :=
  @survivesRestarts_iff TimeFormats.standard 3600 retainedAtEpoch

/-- An hour ahead of UTC a message is an hour older after a restart. -/
theorem not_survivesRestarts : ¬ ∀ (formats : TimeFormats) (offset : Int)
    (messages : TimedMessages), @SurvivesRestarts formats offset messages := by
  intro hall
  have hsame := hall TimeFormats.standard 3600 retainedAtEpoch 1 _
    (@Restarts.restart TimeFormats.standard _ _ _ _ _
      (@Restarts.none TimeFormats.standard 3600 retainedAtEpoch) (.refl _)) [0x61]
  revert hsame
  decide +kernel

end NioevMqtt
