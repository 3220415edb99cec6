-- SUMMARY: What scripts publish: the message carries the payload exactly if a string has no NUL in it, and a typed array shows all of its buffer.
import NioevMqtt.Library.Outcome
import NioevMqtt.Libnioev
import NioevMqtt.Scripting.QuickJS

/-!
# Payloads of scripts

`nv.publish` and its reading of the values it is called with.
-/

namespace NioevMqtt

/-! ## `nv.publish` -/

section

variable {Value : Type} [QuickJS Value]

def strlen (memory : List UInt8) : Nat := (memory.takeWhile (· ≠ 0)).length

/-- The message in the exception of the script. -/
def badPayload : String := "Second argument to publish needs to be a string or an Uint8Array"

/-- The second argument of `publish`. -/
def publishPayload (value : Value) : Except String (List UInt8) :=
  if QuickJS.isString value then
    let payloadStr := QuickJS.toCString value
    .ok (payloadStr.take (strlen payloadStr))
  else
    match QuickJS.getTypedArrayBuffer value with
    | none => .error badPayload
    | some typedArray =>
      -- The size of the view is overwritten by that of the buffer; its offset is not used.
      let ⟨payloadBytes, bytesSize⟩ := QuickJS.getArrayBuffer typedArray.buffer
      if typedArray.bytesPerElement ≠ 1 ∨ payloadBytes = none ∧ bytesSize ≠ 0 then .error badPayload
      else .ok ((payloadBytes.getD []).take bytesSize)

/-- The third argument. -/
def publishRetain : Option Value → Except String Retain
  | none => .ok .no
  | some value =>
    match QuickJS.toBool value with
    | none => .error "Retain must be a bool"
    | some retain => .ok (if retain then .yes else .no)

/-- The fourth argument. -/
def publishQoS : Option Value → Except String QoS
  | none => .ok .qos0
  | some value =>
    match QuickJS.toInt32 value with
    | none => .error "QoS must be an int32"
    | some qosInt =>
      if qosInt < 0 ∨ qosInt > 2 then .error "QoS must be between 0 and 2"
      else .ok (if qosInt = 0 then .qos0 else if qosInt = 1 then .qos1 else .qos2)

/-- `publishFunc`: the packet given to `publishAsync`, or the message that is thrown. -/
def publishFunc : List Value → Except String MQTTPacket
  | topicValue :: payloadValue :: args =>
    if ¬ QuickJS.isString topicValue then
      .error "First argument to publish needs to be a string"
    else do
      let topic := QuickJS.toCString topicValue
      let payload ← publishPayload payloadValue
      let retain ← publishRetain args[0]?
      let qos ← publishQoS args[1]?
      return { topic := topic.take (strlen topic), payload, qos, retain }
  | _ => .error "Publish needs at least 2 args"

end

/-! ## What is meant -/

variable {Value : Type} [QuickJS Value] [JSValues Value] {value : Value}

/-- The payload a script means: a string, or a typed array with elements of one byte. -/
def payloadOf (value : Value) : Option (List UInt8) :=
  if QuickJS.isString value then some (JSValues.encoding value)
  else ((JSValues.typedArray value).filter (·.bytesPerElement = 1)).map TypedArray.bytes

/-- A string has no NUL in it, a typed array shows all of its buffer. -/
def CarriedWhole (value : Value) : Prop :=
  if QuickJS.isString value then 0 ∉ JSValues.encoding value
  else ∀ a ∈ JSValues.typedArray value, a.ShowsAll

/-! ## What is carried -/

/-- A string is read up to its first NUL. -/
theorem take_strlen (memory : List UInt8) :
    memory.take (strlen memory) = memory.takeWhile (· ≠ 0) :=
  List.prefix_iff_eq_take.mp (List.takeWhile_prefix _) |>.symm

theorem takeWhile_encoding_eq_iff (encoding : List UInt8) :
    (encoding ++ [0]).takeWhile (· ≠ 0) = encoding ↔ 0 ∉ encoding := by
  induction encoding with
  | nil => exact iff_of_true rfl List.not_mem_nil
  | cons b encoding ih =>
      by_cases hb : b = 0
      · subst hb
        exact iff_of_false (fun heq => List.cons_ne_nil _ _ heq.symm)
          (not_not.mpr List.mem_cons_self)
      · rw [List.cons_append, List.takeWhile_cons_of_pos (by simpa using hb), List.cons.injEq,
          and_iff_right rfl, ih, List.mem_cons, not_or]
        exact (and_iff_right fun heq => hb heq.symm).symm

/-- What is accepted, and whether it is what the script means. -/
theorem publishPayload_cases {payload : List UInt8} (h : publishPayload value = .ok payload) :
    payloadOf value ≠ none ∧ (payloadOf value = some payload ↔ CarriedWhole value) := by
  unfold publishPayload at h
  unfold payloadOf CarriedWhole
  by_cases hstring : QuickJS.isString value = true
  · rw [if_pos hstring] at h
    simp only [if_pos hstring]
    cases h
    refine ⟨Option.some_ne_none _, ?_⟩
    rw [JSValues.toCString_eq value hstring, take_strlen, Option.some.injEq, eq_comm]
    exact takeWhile_encoding_eq_iff _
  · rw [if_neg hstring] at h
    simp only [if_neg hstring]
    cases ha : JSValues.typedArray value with
    | none =>
        rw [JSValues.getTypedArrayBuffer_of_none value ha] at h
        cases h
    | some a =>
        obtain ⟨buffer, hview, hbuffer⟩ := JSValues.getTypedArrayBuffer_of_some value a ha
        simp only [hview, hbuffer, reduceCtorEq, false_and, or_false] at h
        split at h
        · cases h
        · next hone =>
            cases h
            have hbytes : (some a).filter (·.bytesPerElement = 1) = some a :=
              Option.filter_some_pos (decide_eq_true (not_not.mp hone))
            rw [hbytes]
            refine ⟨Option.some_ne_none _, ?_⟩
            rw [Option.map_some, Option.some.injEq, Option.getD_some, List.take_length,
              a.bytes_eq_buffer_iff]
            exact ⟨fun hall a' ha' => Option.some.inj ha' ▸ hall, fun hall => hall a rfl⟩

/-- Every message that a script publishes has a payload that is a string or a typed array
with elements of one byte, and it carries this payload exactly if it is carried whole. -/
theorem publishFunc_carries_iff {args : List Value} {packet : MQTTPacket}
    (h : publishFunc args = .ok packet) :
    ∃ value, args[1]? = some value ∧ payloadOf value ≠ none ∧
      (payloadOf value = some packet.payload ↔ CarriedWhole value) := by
  match args with
  | [] => cases h
  | [_] => cases h
  | topicValue :: payloadValue :: args =>
      by_cases hstring : QuickJS.isString topicValue = true
      · rw [publishFunc, if_neg (not_not.mpr hstring)] at h
        obtain ⟨payload, hpayload, h⟩ := Outcome.bind_eq_ok h
        obtain ⟨retain, -, h⟩ := Outcome.bind_eq_ok h
        obtain ⟨qos, -, h⟩ := Outcome.bind_eq_ok h
        cases h
        exact ⟨payloadValue, rfl, publishPayload_cases hpayload⟩
      · rw [publishFunc, if_pos hstring] at h
        cases h

/-- The bytes of the buffer from the second on, without the last. -/
def JSValue.inner : JSValue := .typedArray ⟨[1, 2, 3, 4], 1, 2, 1, by decide⟩

/-- A view of the middle of a buffer is not carried, one of all of it is. -/
theorem publishFunc_carries_typedArray :
    ∃ value, [JSValue.string [116], .inner][1]? = some value ∧ payloadOf value ≠ none ∧
      (payloadOf value = some [1, 2, 3, 4] ↔ CarriedWhole value) :=
  publishFunc_carries_iff (rfl : publishFunc [JSValue.string [116], .inner] =
    .ok { topic := [116], payload := [1, 2, 3, 4], qos := .qos0, retain := .no })

/-- Nor is a string with a NUL in it. -/
theorem not_publishFunc_carries :
    ¬ ∀ args : List JSValue, ∀ packet, publishFunc args = .ok packet →
      ∃ value, args[1]? = some value ∧ payloadOf value = some packet.payload := by
  intro h
  obtain ⟨value, hvalue, hpayload⟩ :=
    h [.string [116], .string [97, 0, 98]]
      { topic := [116], payload := [97], qos := .qos0, retain := .no } rfl
  cases hvalue
  cases hpayload

end NioevMqtt
