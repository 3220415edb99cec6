-- SUMMARY: Topic names: over every run the topics of delivered and retained messages are valid, as long as each way in is given what it does not check itself.
import NioevMqtt.Broker.KeptData
import NioevMqtt.Broker.OmniSubscriptions
import NioevMqtt.Scripting.Payloads

/-!
# Topic names

Messages come in as `PUBLISH` packets, as wills, over HTTP, over websockets and from scripts.
Each way in has checks of its own; behind them nothing is checked.
-/

namespace NioevMqtt

/-- `+` or `#`. -/
def isWildcard (c : UInt8) : Bool := c = 0x2B || c = 0x23

/-- Not empty, and without a wildcard. -/
structure ValidTopicName (topic : ByteString) : Prop where
  ne_nil : topic ≠ []
  noWildcard : ∀ c ∈ topic, isWildcard c = false

instance (topic : ByteString) : Decidable (ValidTopicName topic) :=
  decidable_of_iff (topic.isEmpty = false ∧ topic.any isWildcard = false) <| by
    rw [List.isEmpty_eq_false_iff, List.any_eq_false]
    exact ⟨fun h => ⟨h.1, fun c hc => Bool.eq_false_iff.mpr (h.2 c hc)⟩,
      fun h => ⟨h.1, fun c hc => Bool.eq_false_iff.mp (h.2 c hc)⟩⟩

/-- `hasWildcard` of libnioev. -/
class Wildcards where
  hasWildcard : ByteString → Bool
  hasWildcard_iff : ∀ topic, hasWildcard topic = true ↔ ∃ c ∈ topic, isWildcard c = true

/-! ## HTTP -/

/-- The query parameter `retain`. -/
def postRetain (retainStr : String) : Except String Retain :=
  if retainStr = "" ∨ retainStr = "false" then .ok .no
  else if retainStr = "true" then .ok .yes
  else .error "Invalid retain (true or false allowed)"

/-- The query parameter `qos`. -/
def postQoS (qosStr : String) : Except String QoS :=
  if qosStr = "" ∨ qosStr = "0" then .ok .qos0
  else if qosStr = "1" then .ok .qos1
  else if qosStr = "2" then .ok .qos2
  else .error "Invalid QoS (0, 1 or 2 allowed)"

/-- The topic of a URL below `/mqtt/`. -/
def urlTopic (url : ByteString) : ByteString := url.drop 6

/-- `POST /mqtt/*`: the message given to `publish`, or the text of the answer `400`. -/
def post (url : ByteString) (retainStr : String) (payload : List UInt8) (qosStr : String) :
    Except String MQTTPacket :=
  let topic := urlTopic url
  if topic = [] then .error "Invalid topic"
  else do
    let retain ← postRetain retainStr
    let qos ← postQoS qosStr
    return { topic, payload, qos, retain }

theorem topic_of_post {url : ByteString} {retainStr qosStr : String} {payload : List UInt8}
    {packet : MQTTPacket} (h : post url retainStr payload qosStr = .ok packet) :
    packet.topic = urlTopic url ∧ urlTopic url ≠ [] := by
  unfold post at h
  simp only at h
  split at h
  · cases h
  · next hne =>
      obtain ⟨retain, -, h⟩ := Outcome.bind_eq_ok h
      obtain ⟨qos, -, h⟩ := Outcome.bind_eq_ok h
      cases h
      exact ⟨rfl, hne⟩

/-! ## Websockets -/

/-- `PerWebsocketClientData` -/
structure PerWebsocketClientData where
  topic : ByteString
  topicHasWildcard : Bool := true
deriving DecidableEq

/-- The handler `.upgrade`. -/
def upgrade [Wildcards] (url : ByteString) : PerWebsocketClientData :=
  let topic := urlTopic url
  ⟨topic, Wildcards.hasWildcard topic⟩

inductive OpCode where
  | text
  | binary
  | other
deriving DecidableEq

/-- The handler `.message`: the message given to `publishAsync`, if any is. -/
def websocketMessage (userData : PerWebsocketClientData) (msg : List UInt8) (opCode : OpCode) :
    Option MQTTPacket :=
  if opCode ≠ .text ∧ opCode ≠ .binary then none
  else if userData.topicHasWildcard then none
  else some { topic := userData.topic, payload := msg, qos := .qos0, retain := .no }

theorem topic_of_websocketMessage {userData : PerWebsocketClientData} {msg : List UInt8}
    {opCode : OpCode} {packet : MQTTPacket} (h : websocketMessage userData msg opCode = some packet) :
    packet.topic = userData.topic ∧ userData.topicHasWildcard = false := by
  obtain ⟨-, h⟩ := Option.ite_none_left_eq_some.mp h
  obtain ⟨hwildcard, h⟩ := Option.ite_none_left_eq_some.mp h
  cases h
  exact ⟨rfl, Bool.eq_false_iff.mpr hwildcard⟩

/-! ## Scripts -/

/-- The topic a script gives, as a C string, if it gives one. -/
def nvTopic {Value : Type} [QuickJS Value] (args : List Value) : Option ByteString :=
  (args.head?.filter (QuickJS.isString ·)).map fun topicValue =>
    (QuickJS.toCString topicValue).take (strlen (QuickJS.toCString topicValue))

theorem topic_of_publishFunc {Value : Type} [QuickJS Value] {args : List Value} {packet : MQTTPacket}
    (h : publishFunc args = .ok packet) : nvTopic args = some packet.topic := by
  match args with
  | [] => cases h
  | [_] => cases h
  | topicValue :: payloadValue :: args =>
      by_cases hstring : QuickJS.isString topicValue = true
      · rw [publishFunc, if_neg (not_not.mpr hstring)] at h
        obtain ⟨payload, -, h⟩ := Outcome.bind_eq_ok h
        obtain ⟨retain, -, h⟩ := Outcome.bind_eq_ok h
        obtain ⟨qos, -, h⟩ := Outcome.bind_eq_ok h
        cases h
        rw [nvTopic, List.head?_cons, Option.filter_some_pos hstring]
        rfl
      · rw [publishFunc, if_pos hstring] at h
        cases h

/-! ## The system -/

open ApplicationState (Action)

/-- The broker with its `AsyncPublisher`, and the topics that `publishNoLockNoRetain` has been
called with. -/
structure TopicEntries (τ : Type) where
  app : ApplicationState τ
  /-- What `publishAsync` has been given. -/
  mAsyncPublisher : List MQTTPacket := []
  delivered : List ByteString := []

namespace TopicEntries

/-- A message comes in, or something else happens. -/
inductive Entry (Value : Type) where
  | publish (client : ConnectionId) (packet : MQTTPacket) (id : UInt16)
  | connect (client : ConnectionId) (packet : ConnectPacket)
  | post (thread : Nat) (url : ByteString) (retainStr : String) (payload : List UInt8)
    (qosStr : String)
  | websocket (url : ByteString) (msg : List UInt8) (opCode : OpCode)
  | nvPublish (args : List Value)
  /-- `handleTask` of the `AsyncPublisher`. -/
  | handleTask (thread : Nat)
  | other (action : Action)

section

variable {τ Value : Type} [Libnioev] [SubscriptionTree τ] [QuickJS Value] [Wildcards]

/-- A step of the broker, which delivers what it publishes. -/
def perform (s : TopicEntries τ) (action : Action) : Option (TopicEntries τ) :=
  (s.app.stepOk action).map fun app =>
    { s with app, delivered := s.delivered ++ (s.app.publications action).map (·.topic) }

def publishAsync (s : TopicEntries τ) (packet : MQTTPacket) : TopicEntries τ :=
  { s with mAsyncPublisher := s.mAsyncPublisher ++ [packet] }

def step (s : TopicEntries τ) : Entry Value → Option (TopicEntries τ)
  | .publish client packet id =>
    if packet.topic = [] then s.perform (.receiveError client)
    else s.perform (.packet client (.publish packet id))
  | .connect client packet =>
    if (packet.will.map MQTTPacket.topic) = some [] then s.perform (.receiveError client)
    else s.perform (.connect client packet)
  | .post thread url retainStr payload qosStr =>
    match post url retainStr payload qosStr with
    | .error _ => some s
    | .ok packet => s.perform (.start thread (.publish packet))
  | .websocket url msg opCode =>
    match websocketMessage (upgrade url) msg opCode with
    | none => some s
    | some packet => some (s.publishAsync packet)
  | .nvPublish args =>
    match publishFunc args with
    | .error _ => some s
    | .ok packet => some (s.publishAsync packet)
  | .handleTask thread =>
    match s.mAsyncPublisher with
    | [] => none
    | packet :: mAsyncPublisher =>
      { s with mAsyncPublisher }.perform (.start thread (.publish packet))
  -- No message comes in any other way.
  | .other action => if ApplicationState.entering action = [] then s.perform action else none

/-- The broker with the retained messages it has loaded. -/
def initial (retained : RetainedMessages) : TopicEntries τ where
  app := .initial retained

/-- What is delivered and what is retained has a valid topic name. -/
structure TopicsValid (s : TopicEntries τ) : Prop where
  delivered : ∀ topic ∈ s.delivered, ValidTopicName topic
  retained : ∀ topic ∈ s.app.mRetainedMessages, ValidTopicName topic

/-- What comes in is valid as far as it is not checked there: packets, wills and `POST` have
no wildcard in their topic, websockets have a topic, and scripts give a valid one. -/
def EntersValid (_ : TopicEntries τ) : Entry Value → Prop
  | .publish _ packet _ => ∀ c ∈ packet.topic, isWildcard c = false
  | .connect _ packet => ∀ will ∈ packet.will, ∀ c ∈ will.topic, isWildcard c = false
  | .post _ url _ _ _ => ∀ c ∈ urlTopic url, isWildcard c = false
  | .websocket url _ _ => urlTopic url ≠ []
  | .nvPublish args => ∀ topic ∈ nvTopic args, ValidTopicName topic
  | _ => True

instance (s : TopicEntries τ) : Decidable s.TopicsValid :=
  decidable_of_iff ((∀ topic ∈ s.delivered, ValidTopicName topic) ∧
      ∀ topic ∈ s.app.mRetainedMessages.keys, ValidTopicName topic)
    ⟨fun h => ⟨h.1, fun topic hmem => h.2 topic (AList.mem_keys.mp hmem)⟩,
      fun h => ⟨h.1, fun topic hmem => h.2 topic (AList.mem_keys.mpr hmem)⟩⟩

instance (s : TopicEntries τ) (entry : Entry Value) : Decidable (s.EntersValid entry) :=
  match entry with
  | .publish _ packet _ => inferInstanceAs (Decidable (∀ c ∈ packet.topic, _))
  | .connect _ packet => inferInstanceAs (Decidable (∀ will ∈ packet.will, ∀ c ∈ will.topic, _))
  | .post _ url _ _ _ => inferInstanceAs (Decidable (∀ c ∈ urlTopic url, _))
  | .websocket url _ _ => inferInstanceAs (Decidable (urlTopic url ≠ []))
  | .nvPublish args => inferInstanceAs (Decidable (∀ topic ∈ nvTopic args, _))
  | .handleTask _ | .other _ => inferInstanceAs (Decidable True)

/-! ## What is kept -/

variable {s t : TopicEntries τ} {entry : Entry Value} {action : Action}

/-- All that the broker has taken in is valid. -/
structure TakesValid (s : TopicEntries τ) : Prop where
  app : s.app.KeptMeets ValidTopicName fun _ _ => True
  mAsyncPublisher : ∀ packet ∈ s.mAsyncPublisher, ValidTopicName packet.topic
  delivered : ∀ topic ∈ s.delivered, ValidTopicName topic

omit [Wildcards] in
theorem TakesValid.perform (h : s.TakesValid)
    (hentering : ∀ topic ∈ ApplicationState.entering action, ValidTopicName topic)
    (hperform : s.perform action = some t) : t.TakesValid := by
  obtain ⟨app, hstep, rfl⟩ := Option.map_eq_some_iff.mp hperform
  have happ := ApplicationState.KeptMeets.step h.app hentering (fun _ => trivial) hstep
  refine ⟨happ, h.mAsyncPublisher, List.forall_mem_append.mpr ⟨h.delivered, ?_⟩⟩
  rw [List.forall_mem_map]
  exact fun packet hpacket => ApplicationState.KeptMeets.publications h.app hpacket

omit [Libnioev] [SubscriptionTree τ] [Wildcards] in
theorem TakesValid.publishAsync {packet : MQTTPacket} (h : s.TakesValid)
    (hpacket : ValidTopicName packet.topic) : (s.publishAsync packet).TakesValid := by
  refine ⟨h.app, List.forall_mem_append.mpr ⟨h.mAsyncPublisher, ?_⟩, h.delivered⟩
  exact List.forall_mem_singleton.mpr hpacket

theorem TakesValid.step (h : s.TakesValid) (henters : s.EntersValid entry)
    (hstep : s.step entry = some t) : t.TakesValid := by
  have herror : ∀ client, ∀ topic ∈ ApplicationState.entering (.receiveError client),
      ValidTopicName topic := fun _ _ hmem => by cases hmem
  have hstart : ∀ {thread : Nat} {packet : MQTTPacket}, ValidTopicName packet.topic →
      ∀ topic ∈ ApplicationState.entering (.start thread (.publish packet)), ValidTopicName topic :=
    fun hpacket topic hmem => List.mem_singleton.mp hmem ▸ hpacket
  cases entry with
  | publish client packet id =>
      simp only [TopicEntries.step] at hstep
      split at hstep
      · exact h.perform (herror client) hstep
      · next hne =>
          refine h.perform (fun topic hmem => ?_) hstep
          rw [List.mem_singleton.mp hmem]
          exact ⟨hne, henters⟩
  | connect client packet =>
      simp only [TopicEntries.step] at hstep
      split at hstep
      · exact h.perform (herror client) hstep
      · next hne =>
          refine h.perform (fun topic hmem => ?_) hstep
          obtain ⟨will, hwill, rfl⟩ := Option.map_eq_some_iff.mp (Option.mem_toList.mp hmem)
          refine ⟨fun hnil => hne ?_, henters will hwill⟩
          rw [hwill, Option.map_some, hnil]
  | post thread url retainStr payload qosStr =>
      simp only [TopicEntries.step] at hstep
      split at hstep
      · cases hstep
        exact h
      · next packet hpost =>
          obtain ⟨htopic, hne⟩ := topic_of_post hpost
          refine h.perform (hstart ?_) hstep
          rw [htopic]
          exact ⟨hne, henters⟩
  | websocket url msg opCode =>
      simp only [TopicEntries.step] at hstep
      split at hstep
      · cases hstep
        exact h
      · next packet hmessage =>
          obtain ⟨htopic, hwildcard⟩ := topic_of_websocketMessage hmessage
          cases hstep
          refine h.publishAsync ?_
          rw [htopic]
          refine ⟨henters, fun c hc => Bool.eq_false_iff.mpr fun hwild => ?_⟩
          have hsome := (Wildcards.hasWildcard_iff _).mpr ⟨c, hc, hwild⟩
          exact Bool.false_ne_true (hwildcard.symm.trans hsome)
  | nvPublish args =>
      simp only [TopicEntries.step] at hstep
      split at hstep
      · cases hstep
        exact h
      · next packet hpublish =>
          cases hstep
          exact h.publishAsync (henters _ (topic_of_publishFunc hpublish))
  | handleTask thread =>
      simp only [TopicEntries.step] at hstep
      split at hstep
      · cases hstep
      · next packet mAsyncPublisher hqueue =>
          have hall : ∀ p ∈ packet :: mAsyncPublisher, ValidTopicName p.topic := by
            rw [← hqueue]
            exact h.mAsyncPublisher
          have hpopped : TakesValid { s with mAsyncPublisher } :=
            ⟨h.app, fun p hp => hall p (List.mem_cons_of_mem _ hp), h.delivered⟩
          exact hpopped.perform (hstart (hall packet List.mem_cons_self)) hstep
  | other action =>
      obtain ⟨hnone, hstep⟩ := Option.ite_none_right_eq_some.mp hstep
      refine h.perform (fun topic hmem => ?_) hstep
      rw [hnone] at hmem
      cases hmem

omit [Wildcards] in
/-- The broker's invariant is kept whatever comes in. -/
theorem tabled_perform (h : s.app.Tabled) (hperform : s.perform action = some t) : t.app.Tabled := by
  obtain ⟨app, hstep, rfl⟩ := Option.map_eq_some_iff.mp hperform
  exact h.step (ApplicationState.step_of_stepOk hstep)

theorem tabled_step (h : s.app.Tabled) (hstep : s.step entry = some t) : t.app.Tabled := by
  have hsame : some s = some t → t.app.Tabled := fun heq => Option.some.inj heq ▸ h
  cases entry with
  | publish client packet id =>
      simp only [TopicEntries.step] at hstep
      split at hstep
      · exact tabled_perform h hstep
      · exact tabled_perform h hstep
  | connect client packet =>
      simp only [TopicEntries.step] at hstep
      split at hstep
      · exact tabled_perform h hstep
      · exact tabled_perform h hstep
  | post thread url retainStr payload qosStr =>
      simp only [TopicEntries.step] at hstep
      split at hstep
      · exact hsame hstep
      · exact tabled_perform h hstep
  | websocket url msg opCode =>
      simp only [TopicEntries.step] at hstep
      split at hstep
      · exact hsame hstep
      · cases hstep
        exact h
  | nvPublish args =>
      simp only [TopicEntries.step] at hstep
      split at hstep
      · exact hsame hstep
      · cases hstep
        exact h
  | handleTask thread =>
      simp only [TopicEntries.step] at hstep
      split at hstep
      · cases hstep
      · next packet mAsyncPublisher hqueue =>
          exact tabled_perform (s := { s with mAsyncPublisher }) h hstep
  | other action =>
      obtain ⟨-, hstep⟩ := Option.ite_none_right_eq_some.mp hstep
      exact tabled_perform h hstep

/-- Over every run that starts with valid retained messages, and in which what comes in is
valid as far as it is not checked there, what is delivered and what is retained is. Delivered
is what the broker hands out, whatever it does next. -/
theorem topicsValid_of_entersValid {retained : RetainedMessages}
    {run : List (Entry Value × TopicEntries τ)}
    (hrun : Runs.IsRun (Runs.StepOf step) (initial retained) run)
    (hretained : ∀ topic ∈ retained, ValidTopicName topic)
    (henters : Runs.AllSteps EntersValid (initial retained) run) :
    Runs.AllStates TopicsValid run ∧
      Runs.AllSteps (fun s _ => ∀ action, s.app.HandsOut action) (initial retained) run := by
  have hinitial : (initial retained : TopicEntries τ).TakesValid := by
    refine ⟨⟨?_, ?_, ?_, ?_, fun _ => trivial, hretained⟩, ?_, ?_⟩
    · exact fun thread => List.forall_mem_nil _
    · exact List.forall_mem_nil _
    · exact List.forall_mem_nil _
    · exact fun client will hwill => absurd hwill.symm (Option.some_ne_none will)
    · exact List.forall_mem_nil _
    · exact List.forall_mem_nil _
  have htakes : Runs.AllStates TakesValid run :=
    hrun.invariant_of_allSteps (fun _ _ _ h henters hstep => h.step henters hstep) hinitial henters
  refine ⟨fun x hx => ⟨(htakes x hx).delivered, (htakes x hx).app.retained⟩, ?_⟩
  exact hrun.allSteps_of_invariant (I := fun s => s.app.Tabled)
    (fun _ _ _ h hstep => tabled_step h hstep)
    (fun _ _ h action => ApplicationState.handsOut_of_tabled h action)
    (ApplicationState.tabled_initial retained)

end

section

/-- A character of the topic is looked for. -/
local instance standardWildcards : Wildcards where
  hasWildcard topic := topic.any isWildcard
  hasWildcard_iff _ := List.any_eq_true

/-- A retained message comes in over HTTP, one from a script, and one over a websocket. -/
def enterAt (url : ByteString) : List (Entry JSValue) :=
  [.post 0 url "true" [0x68, 0x69] "", .other (.proceed (.other 0) false),
    .other (.proceed (.other 0) false), .other (.execute []),
    .nvPublish [.string [0x74], .string [0x31]], .websocket url [0x32] .text, .handleTask 1,
    .other (.proceed (.other 1) false)]

/-- On `/mqtt/t` all of them are valid. -/
theorem topicsValid_enterAt :
    (Runs.runOf (@step SubscriptionList JSValue .standard _ _ _) (initial ∅)
        (enterAt [0x2F, 0x6D, 0x71, 0x74, 0x74, 0x2F, 0x74])).length = 8 ∧
      Runs.AllStates TopicsValid (Runs.runOf (@step SubscriptionList JSValue .standard _ _ _)
        (initial ∅) (enterAt [0x2F, 0x6D, 0x71, 0x74, 0x74, 0x2F, 0x74])) :=
  ⟨by decide +kernel,
    (@topicsValid_of_entersValid SubscriptionList JSValue .standard _ _ _ ∅ _
      (Runs.isRun_runOf (@step SubscriptionList JSValue .standard _ _ _) _ _) (by decide +kernel)
        (by decide +kernel)).1⟩

/-- A message to `/mqtt/+` is retained under `+`. -/
theorem not_topicsValid_enterAt :
    ¬ Runs.AllStates TopicsValid (Runs.runOf (@step SubscriptionList JSValue .standard _ _ _)
      (initial ∅) (enterAt [0x2F, 0x6D, 0x71, 0x74, 0x74, 0x2F, 0x2B])) := by
  decide +kernel

end

end TopicEntries

end NioevMqtt
