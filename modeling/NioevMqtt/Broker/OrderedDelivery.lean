-- SUMMARY: Concurrent publishes: their fan-outs interleave, and yet every connection is sent the messages of a publisher in the order in which they were published and none of them twice, whether it has resumed its session or not.
import NioevMqtt.Broker.FirstPacket
import NioevMqtt.Broker.ResentMessages
import NioevMqtt.Library.SharedMutex

/-!
# Ordered delivery

`publish` shares `mMutex`, so that several threads hand their messages out at once. Here a
publish takes one step for every recipient, and only what has the lock for itself waits
until all of them are through. Beside the broker stand the messages every thread has
published and a log of what has been delivered to sessions.
-/

namespace NioevMqtt

open Outcome

/-! ## Messages for sessions -/

/-- The packet, when it is sent for the first time. -/
def HandedMessage.packet [Libnioev] (m : HandedMessage) : EncodedPacket :=
  m.builder.freshPacket m.request

namespace ApplicationState

variable {τ : Type} [Libnioev] {s t : ApplicationState τ} {client : ConnectionId}

omit [Libnioev] in
/-- What a delivery hands to a session, at any quality of service. -/
def sessionMessage (s : ApplicationState τ) (d : Delivery) : Option HandedMessage :=
  match d.subscriber with
  | .other _ => none
  | .session session =>
    some
      { delivery := d
        session
        packetId :=
          if d.qos = .qos0 then 0
          else PersistentClientState.nextPacketId (s.sessions session).mPacketIdCounter
        version := (s.sessions session).encoderVersion
          fun client => (s.connections client).mMQTTVersion
        globalOrder := s.globalOrderCounter }

omit [Libnioev] in
theorem sessionMessage_eq_some {d : Delivery} {m : HandedMessage} (h : s.sessionMessage d = some m) :
    d.subscriber = .session m.session ∧ m.delivery = d := by
  obtain ⟨subscriber, topic, payload, qos, retained, properties⟩ := d
  cases subscriber with
  | other id => cases h
  | session session =>
      cases h
      exact ⟨rfl, rfl⟩

omit [Libnioev] in
/-- What is stored are the messages of the higher qualities of service. -/
theorem handedMessage_eq (s : ApplicationState τ) (d : Delivery) :
    (s.handedMessage d).toList =
      (s.sessionMessage d).toList.filter fun m => m.delivery.qos ≠ .qos0 := by
  obtain ⟨subscriber, topic, payload, qos, retained, properties⟩ := d
  cases subscriber with
  | other id => rfl
  | session session =>
      by_cases hqos : qos = .qos0
      · subst hqos
        rfl
      · simp [handedMessage, sessionMessage, hqos]

/-- The connection of the session is sent the packet. -/
theorem deliveredPacket_of_sessionMessage {d : Delivery} {m : HandedMessage}
    (h : s.sessionMessage d = some m) :
    s.deliveredPacket d =
      (s.sessions m.session).mCurrentClient.map fun client => (client, m.packet) := by
  obtain ⟨subscriber, topic, payload, qos, retained, properties⟩ := d
  cases subscriber with
  | other id => cases h
  | session session =>
      cases h
      show (s.sessions session).mCurrentClient.map _ = (s.sessions session).mCurrentClient.map _
      refine Option.map_congr fun client hcurrent => congrArg (Prod.mk client) ?_
      unfold HandedMessage.packet HandedMessage.request deliveredRequest
      simp only [PersistentClientState.encoderVersion, Option.mem_def.mp hcurrent]
      rfl

/-- The messages of many deliveries. -/
def sessionMessages : ApplicationState τ → List Delivery → List HandedMessage
  | _, [] => []
  | s, d :: deliveries =>
    (s.sessionMessage d).toList ++
      match s.deliver d with
      | .error _ => []
      | .ok t => sessionMessages t deliveries

end ApplicationState

/-! ## The system -/

/-- A message in the log, and the publish it comes from: that of a thread, by its number.
Wills and retained messages come from none. -/
structure LoggedMessage where
  message : HandedMessage
  publish : Option (Thread × Nat)

/-- A publish, and whom it is for. -/
structure Publish where
  packet : MQTTPacket
  handOffs : List ApplicationState.HandOff

def Publish.deliveries (p : Publish) : List Delivery :=
  p.handOffs.map (ApplicationState.publishedDelivery p.packet)

structure Publishers (τ : Type) where
  broker : ApplicationState τ
  mMutex : SharedMutex Thread := {}
  /-- The number of the publish a thread is at, and what it has yet to hand out. -/
  fanOut : Thread → Nat × List Delivery := fun _ => (0, [])
  /-- What the threads have published. -/
  published : Thread → List Publish := fun _ => []
  log : List LoggedMessage := []

inductive PublisherAction where
  | broker (action : ApplicationState.Action)
  | beginPublish (thread : Thread)
  | deliver (thread : Thread)
  | endPublish (thread : Thread)

namespace ApplicationState.Action

/-- The steps that have `mMutex` for themselves. -/
def takesLock : Action → Bool
  | .newConnection .. | .execute .. | .executeInternal .. | .logoutSendError .. | .timeout .. |
    .cleanup | .proceed _ true => true
  | _ => false

/-- The thread that takes a step, where it may be one that publishes. -/
def actor : Action → Option Thread
  | .receiveData client _ | .connect client _ | .rejectVersion client | .packet client _ |
    .receiveError client => some (.receiver client)
  | .start id _ => some (.other id)
  | .proceed thread _ => some thread
  | _ => none

end ApplicationState.Action

namespace Publishers

section

variable {τ : Type}

/-- A step that is no publish, with the lock it needs. -/
def Allows (w : Publishers τ) (action : ApplicationState.Action) : Prop :=
  w.broker.published action = none ∧ (action.takesLock = true → w.mMutex.tryLock.isSome) ∧
    ∀ thread ∈ action.actor, thread ∉ w.mMutex.sharers

instance (w : Publishers τ) (action : ApplicationState.Action) : Decidable (w.Allows action) :=
  inferInstanceAs (Decidable (_ ∧ (_ → _) ∧ ∀ thread ∈ action.actor, _))

/-- What is left to a thread that publishes. -/
def leaves (packet : MQTTPacket) (rest : List Work) : List Work :=
  if packet.retain = .yes then .request (.retain packet) :: rest else rest

variable [Libnioev] [SubscriptionTree τ]

def step (w : Publishers τ) : PublisherAction → Option (Publishers τ)
  | .broker action =>
    if w.Allows action then
      (w.broker.stepOk action).map fun t =>
        { w with
          broker := t
          log := w.log ++ ((w.broker.deliveries action).1.sessionMessages
            (w.broker.deliveries action).2).map (⟨·, none⟩) }
    else none
  | .beginPublish thread =>
    match w.broker.work thread with
    | .publish packet :: rest =>
      if thread ∈ w.mMutex.sharers then none
      else
        (w.mMutex.lockShared thread).map fun mMutex =>
          let publish : Publish := ⟨packet, w.broker.fanOut packet⟩
          { w with
            broker := w.broker.setWork thread (leaves packet rest)
            mMutex
            fanOut := Function.update w.fanOut thread
              ((w.published thread).length, publish.deliveries)
            published := Function.update w.published thread (w.published thread ++ [publish]) }
    | _ => none
  | .deliver thread =>
    match w.fanOut thread with
    | (number, d :: rest) =>
      match w.broker.deliver d with
      | .error _ => none
      | .ok t =>
        some { w with
          broker := t
          fanOut := Function.update w.fanOut thread (number, rest)
          log := w.log ++ (w.broker.sessionMessage d).toList.map (⟨·, some (thread, number)⟩) }
    | _ => none
  | .endPublish thread =>
    if thread ∈ w.mMutex.sharers ∧ (w.fanOut thread).2 = [] then
      some { w with mMutex := w.mMutex.unlockShared thread }
    else none

def initial (retained : AList fun _ : ByteString => RetainedMessage) : Publishers τ where
  broker := .initial retained

end

/-! ## What connections are sent -/

section

variable {τ : Type}

/-- The messages among some packets. -/
def publishesOf (packets : List EncodedPacket) : List EncodedPacket :=
  packets.filter fun packet => packet.messageType = .publish

theorem publishesOf_append (packets packets' : List EncodedPacket) :
    publishesOf (packets ++ packets') = publishesOf packets ++ publishesOf packets' :=
  List.filter_append _ _

/-- The messages are those of one session: first some that had been logged before, sent
again, and then all that have been logged from then on, until the connection lost it. -/
def Shows [Libnioev] (log : List LoggedMessage) (attached : Option SessionId)
    (packets : List EncodedPacket) : Prop :=
  ∃ session : SessionId, ∃ before during after resends : List LoggedMessage,
    log = before ++ (during ++ after) ∧
      (∀ session', attached = some session' → session' = session ∧ after = []) ∧
      resends.Sublist before ∧ (∀ m ∈ resends, m.message.session = session) ∧
        publishesOf packets = resends.map (·.message.resent) ++
          (during.filter fun m => m.message.session = session).map (·.message.packet)

variable [Libnioev] {log : List LoggedMessage} {session : SessionId} {attached : Option SessionId}
  {packets : List EncodedPacket}

theorem shows_of_none (h : publishesOf packets = []) : Shows log none packets :=
  ⟨0, log, [], [], [], (List.append_nil log).symm, (fun _ hsome => by cases hsome),
    List.nil_sublist _, (fun _ hm => by cases hm), h⟩

theorem Shows.detach (h : Shows log attached packets) {attached' : Option SessionId}
    (hattached : ∀ session, attached' = some session → attached = some session) :
    Shows log attached' packets := by
  obtain ⟨session, before, during, after, resends, hlog, hsession, hrest⟩ := h
  exact ⟨session, before, during, after, resends, hlog,
    fun session' hsome => hsession session' (hattached session' hsome), hrest⟩

/-- Messages for other sessions are logged. -/
theorem Shows.others (h : Shows log attached packets) {more : List LoggedMessage}
    (hmore : ∀ session, attached = some session → ∀ m ∈ more, m.message.session ≠ session) :
    Shows (log ++ more) attached packets := by
  obtain ⟨session, before, during, after, resends, hlog, hsession, hbefore, hresends, hpackets⟩ := h
  cases attached with
  | none =>
      refine ⟨session, before, during, after ++ more, resends, ?_, (fun _ hsome => by cases hsome),
        hbefore, hresends, hpackets⟩
      rw [hlog, List.append_assoc, List.append_assoc]
  | some session' =>
      obtain ⟨rfl, rfl⟩ := hsession session' rfl
      refine ⟨session', before, during ++ more, [], resends, ?_,
        fun session'' hsome => ⟨(Option.some.inj hsome).symm, rfl⟩, hbefore, hresends, ?_⟩
      · rw [hlog, List.append_nil, List.append_nil, List.append_assoc]
      · have hnone : (more.filter fun m => m.message.session = session') = [] :=
          List.filter_eq_nil_iff.mpr fun m hm heq => hmore session' rfl m hm (of_decide_eq_true heq)
        rw [List.filter_append, hnone, List.append_nil]
        exact hpackets

theorem Shows.answer (h : Shows log attached packets) {packet : EncodedPacket}
    (hpacket : packet.messageType ≠ .publish) : Shows log attached (packets ++ [packet]) := by
  have hnone : publishesOf [packet] = [] :=
    List.filter_cons_of_neg (by rw [decide_eq_true_iff]; exact hpacket)
  unfold Shows
  rw [publishesOf_append, hnone, List.append_nil]
  exact h

theorem Shows.deliver (h : Shows log (some session) packets) {m : LoggedMessage}
    (hm : m.message.session = session) :
    Shows (log ++ [m]) (some session) (packets ++ [m.message.packet]) := by
  obtain ⟨session', before, during, after, resends, hlog, hsession, hbefore, hresends, hpackets⟩ := h
  obtain ⟨rfl, rfl⟩ := hsession session rfl
  have htype : m.message.packet.messageType = .publish :=
    MQTTPublishPacketBuilder.messageType_freshPacket m.message.builder m.message.request
  have hone : publishesOf [m.message.packet] = [m.message.packet] :=
    List.filter_cons_of_pos (decide_eq_true htype)
  have hnew : ([m].filter fun m => m.message.session = session) = [m] :=
    List.filter_cons_of_pos (decide_eq_true hm)
  refine ⟨session, before, during ++ [m], [], resends, ?_,
    fun session' hsome => ⟨(Option.some.inj hsome).symm, rfl⟩, hbefore, hresends, ?_⟩
  · rw [hlog, List.append_nil, List.append_nil, List.append_assoc]
  · rw [publishesOf_append, hpackets, hone, List.filter_append, hnew, List.map_append,
      List.append_assoc]
    rfl

/-- The connections show what is logged, and those that wait for their login nothing. -/
structure Displays (s : ApplicationState τ) (log : List LoggedMessage) : Prop where
  waiting : ∀ client, s.view.mState client ≠ .connected → publishesOf (s.sentTo client) = []
  shows : ∀ client, Shows log (s.view.attached client) (s.sentTo client)

variable {s t : ApplicationState τ} {client : ConnectionId}

/-- A step that may answer. -/
theorem Displays.answer (h : Displays s log)
    (hconnected : ∀ client, s.view.mState client = .connected → t.view.mState client = .connected)
    (hattached : ∀ client session, t.view.attached client = some session →
      s.view.attached client = some session)
    (answered : Option (ConnectionId × EncodedPacket)) (hsent : t.sentTo = sendTo s.sentTo answered)
    (hanswer : ∀ client packet, answered = some (client, packet) →
      packet.messageType ≠ .publish) : Displays t log where
  waiting := by
    intro c hc
    have hold := h.waiting c fun hconnect => hc (hconnected c hconnect)
    rw [hsent]
    cases answered with
    | none => exact hold
    | some m =>
        obtain ⟨client, packet⟩ := m
        by_cases hclient : c = client
        · subst hclient
          have hnone : publishesOf [packet] = [] :=
            List.filter_cons_of_neg (by rw [decide_eq_true_iff]; exact hanswer c packet rfl)
          rw [sendTo_self, publishesOf_append, hold, hnone]
          rfl
        · rw [sendTo_of_ne hclient]
          exact hold
  shows := by
    intro c
    have hshows := (h.shows c).detach (hattached c)
    rw [hsent]
    cases answered with
    | none => exact hshows
    | some m =>
        obtain ⟨client, packet⟩ := m
        by_cases hclient : c = client
        · subst hclient
          rw [sendTo_self]
          exact hshows.answer (hanswer c packet rfl)
        · rw [sendTo_of_ne hclient]
          exact hshows

/-- A delivery shows on the connection of its session, and is logged. -/
theorem Displays.deliver (h : Displays s log) (hlinks : s.view.Attached) {d : Delivery}
    (hok : s.deliver d = .ok t) (publish : Option (Thread × Nat)) :
    Displays t (log ++ (s.sessionMessage d).toList.map (⟨·, publish⟩)) := by
  have hview := (ApplicationState.sendPublish_publishes hok).view_eq
  have hsent := ApplicationState.sentTo_deliver hok
  cases hmessage : s.sessionMessage d with
  | none =>
      obtain ⟨subscriber, topic, payload, qos, retained, properties⟩ := d
      cases subscriber with
      | session session => cases hmessage
      | other id =>
          cases hok
          rw [Option.toList_none, List.map_nil, List.append_nil]
          exact h
  | some m =>
      rw [ApplicationState.deliveredPacket_of_sessionMessage hmessage] at hsent
      have hother : ∀ c, (s.sessions m.session).mCurrentClient ≠ some c →
          Shows (log ++ [⟨m, publish⟩]) (t.view.attached c) (s.sentTo c) := by
        intro c hc
        rw [hview]
        refine (h.shows c).others fun session hsome m' hm' heq => hc ?_
        rw [List.mem_singleton.mp hm'] at heq
        exact (hlinks.inverse _ _).mp (hsome.trans (congrArg some heq.symm))
      cases hcurrent : (s.sessions m.session).mCurrentClient with
      | none =>
          rw [hcurrent] at hsent
          refine ⟨fun c hc => ?_, fun c => ?_⟩
          · rw [hsent]
            exact h.waiting c (hview ▸ hc)
          · rw [hsent]
            exact hother c (by rw [hcurrent]; exact (Option.some_ne_none c).symm)
      | some client =>
          rw [hcurrent, Option.map_some] at hsent
          have hattached : s.view.attached client = some m.session :=
            (hlinks.inverse _ _).mpr hcurrent
          have hconnected : s.view.mState client = .connected :=
            hlinks.connected client (by rw [hattached]; exact Option.some_ne_none _)
          refine ⟨fun c hc => ?_, fun c => ?_⟩
          · have hne : c ≠ client := by
              rintro rfl
              rw [hview] at hc
              exact hc hconnected
            rw [hsent, sendTo_of_ne hne]
            exact h.waiting c (hview ▸ hc)
          · rw [hsent]
            by_cases hclient : c = client
            · subst hclient
              have hshows := h.shows c
              rw [hattached] at hshows
              rw [sendTo_self, hview, hattached]
              exact hshows.deliver rfl
            · rw [sendTo_of_ne hclient]
              refine hother c fun heq => hclient ?_
              exact Option.some.inj (heq.symm.trans hcurrent)

theorem Displays.deliverAll (h : Displays s log) (hlinks : s.view.Attached)
    {deliveries : List Delivery}
    (hok : deliveries.foldlM ApplicationState.deliver s = .ok t) :
    Displays t (log ++ (s.sessionMessages deliveries).map (⟨·, none⟩)) := by
  induction deliveries generalizing s log with
  | nil =>
      cases hok
      rw [ApplicationState.sessionMessages, List.map_nil, List.append_nil]
      exact h
  | cons d deliveries ih =>
      rw [List.foldlM_cons] at hok
      obtain ⟨u, hd, hrest⟩ := bind_eq_ok hok
      have hview := (ApplicationState.sendPublish_publishes hd).view_eq
      have hlater := ih (h.deliver hlinks hd none) (hview ▸ hlinks) hrest
      rw [List.append_assoc, ← List.map_append] at hlater
      rw [ApplicationState.sessionMessages, hd]
      exact hlater

end

/-! ## What has been handed out -/

/-- Two messages of one thread for one session are logged in the order of their publishes,
which are two. -/
def Precedes (m m' : LoggedMessage) : Prop :=
  ∀ thread n n', m.publish = some (thread, n) → m'.publish = some (thread, n') →
    m.message.session = m'.message.session → n < n'

/-- The log has what the threads have published, except for what they have yet to hand out. -/
structure HandsOut (sharers : Finset Thread) (fanOut : Thread → Nat × List Delivery)
    (published : Thread → List Publish) (log : List LoggedMessage) : Prop where
  idle : ∀ thread, thread ∉ sharers → (fanOut thread).2 = []
  nodup : ∀ thread, ((fanOut thread).2.map Delivery.subscriber).Nodup
  pending : ∀ thread, ∀ d ∈ (fanOut thread).2,
    ∃ p, (published thread)[(fanOut thread).1]? = some p ∧ d ∈ p.deliveries
  logged : ∀ m ∈ log, ∀ thread n, m.publish = some (thread, n) →
    ∃ p, (published thread)[n]? = some p ∧ m.message.delivery ∈ p.deliveries
  earlier : ∀ thread, ∀ d ∈ (fanOut thread).2, ∀ m ∈ log, ∀ n, m.publish = some (thread, n) →
    d.subscriber = .session m.message.session → n < (fanOut thread).1
  ordered : log.Pairwise Precedes
  complete : ∀ thread n p, (published thread)[n]? = some p → ∀ d ∈ p.deliveries,
    ∀ session, d.subscriber = .session session →
      (∃ m ∈ log, m.publish = some (thread, n) ∧ m.message.delivery = d) ∨
        n = (fanOut thread).1 ∧ d ∈ (fanOut thread).2

namespace HandsOut

variable {sharers : Finset Thread} {fanOut : Thread → Nat × List Delivery}
  {published : Thread → List Publish} {log : List LoggedMessage} {thread : Thread}

/-- Messages that no thread publishes. -/
theorem others (h : HandsOut sharers fanOut published log) (messages : List HandedMessage) :
    HandsOut sharers fanOut published (log ++ messages.map (⟨·, none⟩)) := by
  have hold : ∀ m ∈ log ++ messages.map (⟨·, none⟩), ∀ made, m.publish = some made → m ∈ log := by
    intro m hm made hmade
    rcases List.mem_append.mp hm with hlogged | hother
    · exact hlogged
    · obtain ⟨message, -, rfl⟩ := List.mem_map.mp hother
      cases hmade
  refine ⟨h.idle, h.nodup, h.pending, ?_, ?_, ?_, ?_⟩
  · intro m hm thread n hmade
    exact h.logged m (hold m hm _ hmade) thread n hmade
  · intro thread d hd m hm n hmade
    exact h.earlier thread d hd m (hold m hm _ hmade) n hmade
  · refine List.pairwise_append.mpr ⟨h.ordered, ?_, ?_⟩
    · refine List.pairwise_map.mpr (List.pairwise_of_forall fun _ _ thread n n' hmade => ?_)
      cases hmade
    · intro m _ m' hm' thread n n' _ hmade'
      obtain ⟨message, -, rfl⟩ := List.mem_map.mp hm'
      cases hmade'
  · intro thread n p hp d hd session hsession
    refine (h.complete thread n p hp d hd session hsession).imp_left ?_
    rintro ⟨m, hm, hmade⟩
    exact ⟨m, List.mem_append_left _ hm, hmade⟩

/-- A thread begins a publish, under a number of its own. -/
theorem beginPublish (h : HandsOut sharers fanOut published log) (publish : Publish)
    (hnodup : (publish.deliveries.map Delivery.subscriber).Nodup) (hidle : thread ∉ sharers) :
    HandsOut (insert thread sharers)
      (Function.update fanOut thread ((published thread).length, publish.deliveries))
      (Function.update published thread (published thread ++ [publish])) log := by
  have hpublished : ∀ (thread' : Thread) (n : Nat) (p : Publish),
      (published thread')[n]? = some p →
      (Function.update published thread (published thread ++ [publish]) thread')[n]? = some p := by
    intro thread' n p hp
    by_cases hthread : thread' = thread
    · subst hthread
      rw [Function.update_self, List.getElem?_append_left (List.getElem?_eq_some_iff.mp hp).1]
      exact hp
    · rw [Function.update_of_ne hthread]
      exact hp
  refine ⟨?_, ?_, ?_, ?_, ?_, h.ordered, ?_⟩
  · intro thread' hthread'
    have hne : thread' ≠ thread := fun heq => hthread' (heq ▸ Finset.mem_insert_self _ _)
    rw [Function.update_of_ne hne]
    exact h.idle thread' fun hmem => hthread' (Finset.mem_insert_of_mem hmem)
  · intro thread'
    by_cases hthread : thread' = thread
    · subst hthread
      rw [Function.update_self]
      exact hnodup
    · rw [Function.update_of_ne hthread]
      exact h.nodup thread'
  · intro thread' d hd
    by_cases hthread : thread' = thread
    · subst hthread
      rw [Function.update_self] at hd
      rw [Function.update_self, Function.update_self]
      exact ⟨publish, List.getElem?_concat_length, hd⟩
    · rw [Function.update_of_ne hthread] at hd
      rw [Function.update_of_ne hthread, Function.update_of_ne hthread]
      exact h.pending thread' d hd
  · intro m hm thread' n hmade
    obtain ⟨p, hp, hmem⟩ := h.logged m hm thread' n hmade
    exact ⟨p, hpublished thread' n p hp, hmem⟩
  · intro thread' d hd m hm n hmade hsession
    by_cases hthread : thread' = thread
    · subst hthread
      obtain ⟨p, hp, -⟩ := h.logged m hm thread' n hmade
      rw [Function.update_self]
      exact (List.getElem?_eq_some_iff.mp hp).1
    · rw [Function.update_of_ne hthread] at hd
      rw [Function.update_of_ne hthread]
      exact h.earlier thread' d hd m hm n hmade hsession
  · intro thread' n p hp d hd session hsession
    by_cases hthread : thread' = thread
    · subst hthread
      rw [Function.update_self] at hp
      rw [Function.update_self]
      by_cases hn : n < (published thread').length
      · rw [List.getElem?_append_left hn] at hp
        -- What was published before has been handed out.
        refine .inl ((h.complete thread' n p hp d hd session hsession).resolve_right ?_)
        rintro ⟨-, hmem⟩
        rw [h.idle thread' hidle] at hmem
        cases hmem
      · have hlt := (List.getElem?_eq_some_iff.mp hp).1
        rw [List.length_append, List.length_singleton] at hlt
        have hlast : n = (published thread').length := by omega
        subst hlast
        rw [List.getElem?_concat_length] at hp
        cases hp
        exact .inr ⟨rfl, hd⟩
    · rw [Function.update_of_ne hthread] at hp ⊢
      exact h.complete thread' n p hp d hd session hsession

/-- A thread hands its message to the next subscriber. -/
theorem deliver (h : HandsOut sharers fanOut published log) {number : Nat} {d : Delivery}
    {rest : List Delivery} (hfanOut : fanOut thread = (number, d :: rest))
    {message : Option HandedMessage}
    (hsome : ∀ m, message = some m → d.subscriber = .session m.session ∧ m.delivery = d)
    (hnone : message = none → ∀ session, d.subscriber ≠ .session session) :
    HandsOut sharers (Function.update fanOut thread (number, rest)) published
      (log ++ message.toList.map (⟨·, some (thread, number)⟩)) := by
  have hmem : ∀ {m}, m ∈ message.toList.map (fun m => (⟨m, some (thread, number)⟩ : LoggedMessage)) →
      m.publish = some (thread, number) ∧ d.subscriber = .session m.message.session ∧
        m.message.delivery = d := by
    intro _ hlogged
    obtain ⟨m, hm, rfl⟩ := List.mem_map.mp hlogged
    exact ⟨rfl, hsome m (Option.mem_toList.mp hm)⟩
  have hpending : ∀ thread' d', d' ∈ (Function.update fanOut thread (number, rest) thread').2 →
      d' ∈ (fanOut thread').2 ∧
        (Function.update fanOut thread (number, rest) thread').1 = (fanOut thread').1 := by
    intro thread' d' hd'
    by_cases hthread : thread' = thread
    · subst hthread
      rw [Function.update_self] at hd' ⊢
      rw [hfanOut]
      exact ⟨List.mem_cons_of_mem _ hd', rfl⟩
    · rw [Function.update_of_ne hthread] at hd' ⊢
      exact ⟨hd', rfl⟩
  have hnodup := h.nodup thread
  rw [hfanOut, List.map_cons, List.nodup_cons] at hnodup
  have hnext : d ∈ (fanOut thread).2 := by
    rw [hfanOut]
    exact List.mem_cons_self
  refine ⟨?_, ?_, ?_, ?_, ?_, ?_, ?_⟩
  · intro thread' hthread'
    have hempty := h.idle thread' hthread'
    have hne : thread' ≠ thread := by
      rintro rfl
      rw [hempty] at hnext
      cases hnext
    rw [Function.update_of_ne hne]
    exact hempty
  · intro thread'
    by_cases hthread : thread' = thread
    · subst hthread
      rw [Function.update_self]
      exact hnodup.2
    · rw [Function.update_of_ne hthread]
      exact h.nodup thread'
  · intro thread' d' hd'
    obtain ⟨hold, hnumber⟩ := hpending thread' d' hd'
    rw [hnumber]
    exact h.pending thread' d' hold
  · intro m hm thread' n hmade
    rcases List.mem_append.mp hm with hold | hnew
    · exact h.logged m hold thread' n hmade
    · obtain ⟨hpublish, -, hdelivery⟩ := hmem hnew
      cases hpublish.symm.trans hmade
      rw [hdelivery]
      have hlater := h.pending thread d hnext
      rw [hfanOut] at hlater
      exact hlater
  · intro thread' d' hd' m hm n hmade hsession
    obtain ⟨hold, hnumber⟩ := hpending thread' d' hd'
    rw [hnumber]
    rcases List.mem_append.mp hm with hlogged | hnew
    · exact h.earlier thread' d' hold m hlogged n hmade hsession
    · -- Nobody is handed the message twice.
      obtain ⟨hpublish, hsubscriber, -⟩ := hmem hnew
      cases hpublish.symm.trans hmade
      rw [Function.update_self] at hd'
      exact absurd (List.mem_map.mpr ⟨d', hd', hsession.trans hsubscriber.symm⟩) hnodup.1
  · refine List.pairwise_append.mpr ⟨h.ordered, ?_, ?_⟩
    · cases message with
      | none => exact .nil
      | some m => exact List.pairwise_singleton _ _
    · intro m hm m' hm' thread' n n' hmade hmade' hsession
      obtain ⟨hpublish, hsubscriber, -⟩ := hmem hm'
      cases hpublish.symm.trans hmade'
      have hearlier := h.earlier thread d hnext m hm n hmade (hsession ▸ hsubscriber)
      rw [hfanOut] at hearlier
      exact hearlier
  · intro thread' n p hp d' hd' session hsession
    rcases h.complete thread' n p hp d' hd' session hsession with ⟨m, hm, hmade⟩ | ⟨hn, hleft⟩
    · exact .inl ⟨m, List.mem_append_left _ hm, hmade⟩
    · by_cases hthread : thread' = thread
      · subst hthread
        rw [hfanOut] at hn hleft
        rw [Function.update_self]
        rcases List.mem_cons.mp hleft with rfl | hrest
        · cases hmessage : message with
          | none => exact absurd hsession (hnone hmessage session)
          | some m =>
              refine .inl ⟨⟨m, some (thread', number)⟩, ?_, congrArg some (Prod.ext rfl hn.symm),
                (hsome m hmessage).2⟩
              exact List.mem_append_right _ (List.mem_singleton_self _)
        · exact .inr ⟨hn, hrest⟩
      · rw [Function.update_of_ne hthread]
        exact .inr ⟨hn, hleft⟩

/-- A publish is over. -/
theorem endPublish (h : HandsOut sharers fanOut published log) (hdone : (fanOut thread).2 = []) :
    HandsOut (sharers.erase thread) fanOut published log := by
  refine ⟨fun thread' hthread' => ?_, h.nodup, h.pending, h.logged, h.earlier, h.ordered, h.complete⟩
  by_cases hthread : thread' = thread
  · rw [hthread]
    exact hdone
  · exact h.idle thread' fun hmem => hthread' (Finset.mem_erase.mpr ⟨hthread, hmem⟩)

end HandsOut

/-! ## What a step shows -/

/-- The messages that are stored until they are acknowledged. -/
def stored (log : List LoggedMessage) : List HandedMessage :=
  (log.map (·.message)).filter fun m => m.delivery.qos ≠ .qos0

theorem stored_append (log more : List LoggedMessage) :
    stored (log ++ more) = stored log ++ stored more := by
  unfold stored
  rw [List.map_append, List.filter_append]

section

variable {τ : Type} [Libnioev] {s t : ApplicationState τ} {log : List LoggedMessage}

omit [Libnioev] in
theorem stored_sessionMessage (s : ApplicationState τ) (d : Delivery)
    (publish : Option (Thread × Nat)) :
    stored ((s.sessionMessage d).toList.map (⟨·, publish⟩)) = (s.handedMessage d).toList := by
  unfold stored
  rw [List.map_map, ApplicationState.handedMessage_eq]
  exact congrArg (List.filter _) (List.map_id _)

theorem stored_sessionMessages (s : ApplicationState τ) (deliveries : List Delivery) :
    stored ((s.sessionMessages deliveries).map (⟨·, none⟩)) = s.handedMessages deliveries := by
  induction deliveries generalizing s with
  | nil => rfl
  | cons d deliveries ih =>
      rw [ApplicationState.sessionMessages, ApplicationState.handedMessages, List.map_append,
        stored_append, stored_sessionMessage]
      cases hd : s.deliver d with
      | error fault => rfl
      | ok t => exact congrArg (_ ++ ·) (ih t)

theorem messageType_resent (m : HandedMessage) : m.resent.messageType = .publish :=
  (MQTTPublishPacketBuilder.isPublish_getPacket _ _ _ _ m.request).messageType_setDupFlag

omit [Libnioev] in
theorem publishesOf_none {packets : List EncodedPacket}
    (h : ∀ packet ∈ packets, packet.messageType ≠ .publish) : publishesOf packets = [] :=
  List.filter_eq_nil_iff.mpr fun packet hpacket htype => h packet hpacket (of_decide_eq_true htype)

/-- The messages of a login are those that the session has not acknowledged. -/
theorem shows_loginPackets (h : s.Logged (stored log)) (login : Login) :
    Shows log (some (s.sessionFor login)) (s.loginPackets login) := by
  have hconnack : ∀ version sessionPresent,
      publishesOf [ApplicationState.connack version sessionPresent] = [] := by
    intro version sessionPresent
    refine publishesOf_none fun packet hpacket => ?_
    rw [List.mem_singleton.mp hpacket, ApplicationState.connack,
      EncodedPacket.messageType_fromData .connack (by decide)]
    decide
  by_cases hresumes : s.Resumes login
  · rw [ApplicationState.loginPackets_of_resumes hresumes, h.orderedPackets_eq]
    let again : LoggedMessage → Bool := fun m =>
      m.message.delivery.qos ≠ .qos0 ∧ m.message.session = s.sessionFor login ∧
        (s.outgoing (s.sessionFor login)).packets.lookup m.message.packetId = some m.message.storage
    have hagain : ApplicationState.Logged.unacknowledged s (stored log) (s.sessionFor login) =
        (log.filter again).map (·.message) := by
      unfold ApplicationState.Logged.unacknowledged stored
      rw [List.filter_filter, List.filter_map]
      refine congrArg (List.map _) (List.filter_congr fun m _ => ?_)
      simp only [Function.comp, again, ← Bool.decide_and, and_comm]
    refine ⟨s.sessionFor login, log, [], [], log.filter again, (List.append_nil log).symm,
      fun session' hsome => ⟨(Option.some.inj hsome).symm, rfl⟩, List.filter_sublist, ?_, ?_⟩
    · intro m hm
      exact (of_decide_eq_true (List.mem_filter.mp hm).2).2.1
    · have hresent : publishesOf ((log.filter again).map (·.message.resent)) =
          (log.filter again).map (·.message.resent) := by
        refine List.filter_eq_self.mpr fun packet hpacket => ?_
        obtain ⟨m, -, rfl⟩ := List.mem_map.mp hpacket
        exact decide_eq_true (messageType_resent m.message)
      have hpubrels : publishesOf ((ApplicationState.pubrelIdentifiers
          (s.sessions (s.sessionFor login))).map ApplicationState.pubrel) = [] := by
        refine publishesOf_none fun packet hpacket => ?_
        obtain ⟨id, -, rfl⟩ := List.mem_map.mp hpacket
        rw [ApplicationState.pubrel, EncodedPacket.messageType_fromData .pubrel (by decide)]
        decide
      rw [← List.singleton_append, publishesOf_append, hconnack, publishesOf_append, hpubrels,
        hagain, List.map_map]
      exact (List.append_nil _).trans (hresent.trans (List.append_nil _).symm)
  · rw [ApplicationState.loginPackets_of_clean hresumes]
    exact ⟨s.sessionFor login, log, [], [], [], (List.append_nil log).symm,
      (fun session' hsome => ⟨(Option.some.inj hsome).symm, rfl⟩), List.nil_sublist _,
      (fun _ hm => by cases hm), hconnack _ _⟩

variable [SubscriptionTree τ] {action : ApplicationState.Action}

/-- A step of the broker shows what it logs. -/
theorem Displays.step (h : Displays s log) (hlinks : s.Linked) (hlogged : s.Logged (stored log))
    (hanswers : ∀ thread client packet, .reply client packet ∈ s.work thread → packet.IsAnswer)
    (hstep : s.stepOk action = some t) :
    Displays t (log ++ ((s.deliveries action).1.sessionMessages
      (s.deliveries action).2).map (⟨·, none⟩)) := by
  have hstep' := ApplicationState.step_of_stepOk hstep
  have hconnected : ∀ client, s.view.mState client = .connected →
      t.view.mState client = .connected := fun client =>
    ApplicationState.connected_stepOk hlinks hstep
  cases hlogin : s.executedLogin action with
  | some login =>
      have hconnects := ApplicationState.connects_executedLogin hlinks hstep hlogin
      have hsent := ApplicationState.sentTo_executedLogin hlinks hstep hlogin
      rw [ApplicationState.deliveries_of_executedLogin hlogin, ApplicationState.sessionMessages,
        List.map_nil, List.append_nil]
      refine ⟨fun c hc => ?_, fun c => ?_⟩
      · have hne : c ≠ login.client := by
          rintro rfl
          rw [hconnects.mState_eq, Function.update_self] at hc
          exact hc rfl
        rw [hsent, Function.update_of_ne hne]
        exact h.waiting c fun hold => hc (hconnected c hold)
      · by_cases hclient : c = login.client
        · -- The connection shows what it is sent now.
          subst hclient
          have hnothing := h.waiting login.client (by rw [hconnects.waits]; decide)
          rw [hsent, Function.update_self, hconnects.attached_self]
          unfold Shows
          rw [publishesOf_append, hnothing]
          exact shows_loginPackets hlogged login
        · rw [hsent, Function.update_of_ne hclient]
          exact (h.shows c).detach fun session' => hconnects.attached c session' hclient
  | none =>
      by_cases hnew : ∃ remote now, action = .newConnection remote now
      · obtain ⟨remote, now, rfl⟩ := hnew
        cases ApplicationState.steps_of_step hstep' with
        | newConnection =>
            have hsent : (s.handleNewClientConnection remote now).sentTo =
                Function.update s.sentTo s.nextConnection [] :=
              funext fun c => Function.apply_update (fun _ => MQTTClientConnection.sent) _ _ _ c
            have hview := ApplicationState.view_handleNewClientConnection s remote now
            show Displays _ (log ++ [])
            rw [List.append_nil]
            refine ⟨fun c hc => ?_, fun c => ?_⟩
            · rw [hsent]
              by_cases hclient : c = s.nextConnection
              · rw [hclient, Function.update_self]
                rfl
              · rw [Function.update_of_ne hclient]
                exact h.waiting c fun hold => hc (hconnected c hold)
            · rw [hsent, hview]
              by_cases hclient : c = s.nextConnection
              · have hnone : s.view.newConnection.attached s.nextConnection = none :=
                  Function.update_self _ _ _
                rw [hclient, Function.update_self, hnone]
                exact shows_of_none rfl
              · rw [Function.update_of_ne hclient]
                exact (h.shows c).detach fun session' => some_of_update_none
      · obtain ⟨hbase, u, hu, hsent⟩ := ApplicationState.sendsMade_step hlinks
          (fun remote now heq => hnew ⟨remote, now, heq⟩) hlogin hstep'
        obtain ⟨hattached, hstate, hlinksEq⟩ := ApplicationState.view_deliveries hlinks action
        have hmade : Displays (s.deliveries action).1 log :=
          h.answer (fun c hc => hstate ▸ hc) (fun c session hsome => hlinksEq ▸ hsome)
            none hbase fun _ _ heq => by cases heq
        have hdelivered := hmade.deliverAll hattached hu
        have hview : u.view = (s.deliveries action).1.view :=
          Outcome.foldlM_invariant (P := fun v => v.view = (s.deliveries action).1.view)
            (fun v d v' hv hd => (ApplicationState.sendPublish_publishes hd).view_eq.trans hv) hu rfl
        refine hdelivered.answer ?_ ?_ _ hsent ?_
        · intro c hc
          rw [hview, hstate] at hc
          exact hconnected c hc
        · intro c session hsome
          rw [hview, hlinksEq]
          by_cases hconnect : ∃ client packet, action = .connect client packet
          · obtain ⟨client, packet, rfl⟩ := hconnect
            cases ApplicationState.steps_of_step hstep' with
            | connect =>
                rw [ApplicationState.view_handleConnect] at hsome
                exact hsome
          by_cases hreject : ∃ client, action = .rejectVersion client
          · obtain ⟨client, rfl⟩ := hreject
            cases ApplicationState.steps_of_step hstep' with
            | rejectVersion =>
                rw [ApplicationState.view_rejectVersion] at hsome
                exact hsome
          exact (ApplicationState.keepsConnections_step hlinks
            (fun client packet heq => hconnect ⟨client, packet, heq⟩)
            (fun client heq => hreject ⟨client, heq⟩) hlogin hstep').attached c session hsome
        · intro c packet hanswer
          cases action with
          | rejectVersion client =>
              cases hanswer
              rw [EncodedPacket.messageType_fromData .connack (by decide)]
              decide
          | proceed thread lockTaken =>
              simp only [ApplicationState.answer] at hanswer
              split at hanswer
              · next hwork =>
                  cases hanswer
                  exact (hanswers thread c packet (by rw [hwork]; exact List.mem_cons_self)).2
              · cases hanswer
          | _ => cases hanswer

end

/-! ## Runs -/

section

variable {τ : Type} [Libnioev] [SubscriptionTree τ] {w w' : Publishers τ}

/-- What holds in every state. -/
structure Sound (w : Publishers τ) : Prop where
  linked : w.broker.Linked
  logged : w.broker.Logged (stored w.log)
  answers : ∀ thread client packet, .reply client packet ∈ w.broker.work thread → packet.IsAnswer
  displays : Displays w.broker w.log
  handsOut : HandsOut w.mMutex.sharers w.fanOut w.published w.log

theorem sound_initial (retained : AList fun _ : ByteString => RetainedMessage) :
    (initial retained : Publishers τ).Sound where
  linked := ApplicationState.linked_initial retained
  logged := {
    stored := fun _ _ _ hsome => by cases hsome
    ordered := .nil
    counted := fun _ hm => by cases hm
    highQoS := fun _ hm => by cases hm }
  answers := fun _ _ _ hmem => by cases hmem
  displays := {
    waiting := fun _ _ => rfl
    shows := fun _ => shows_of_none rfl }
  handsOut := {
    idle := fun _ _ => rfl
    nodup := fun _ => .nil
    pending := fun _ _ hd => by cases hd
    logged := fun _ hm => by cases hm
    earlier := fun _ _ hd => by cases hd
    ordered := .nil
    complete := fun _ _ _ hp => by cases hp }

theorem Sound.broker (h : w.Sound) {action : ApplicationState.Action}
    (hstep : w.step (.broker action) = some w') : w'.Sound := by
  simp only [step] at hstep
  split at hstep
  · obtain ⟨t, hok, rfl⟩ := Option.map_eq_some_iff.mp hstep
    refine ⟨ApplicationState.linked_stepOk h.linked hok, ?_, ?_,
      h.displays.step h.linked h.logged h.answers hok, h.handsOut.others _⟩
    · -- What is stored is what there is to be sent again.
      let w4 : ResentMessages τ := ⟨w.broker, stored w.log⟩
      have hw4 : w4.Sound := ⟨h.linked, h.logged⟩
      have hstored := (hw4.step (Option.map_eq_some_iff.mpr ⟨t, hok, rfl⟩ :
        w4.step action = some ⟨t, stored w.log ++ (w.broker.deliveries action).1.handedMessages
          (w.broker.deliveries action).2⟩)).logged
      rw [stored_append, stored_sessionMessages]
      exact hstored
    · intro thread client packet hmem
      rcases ApplicationState.reply_of_step h.linked (ApplicationState.step_of_stepOk hok) hmem with
        hold | ⟨htype, -⟩
      · exact h.answers thread client packet hold
      · exact htype
  · cases hstep

theorem Sound.beginPublish (h : w.Sound) {thread : Thread}
    (hstep : w.step (.beginPublish thread) = some w') : w'.Sound := by
  simp only [step] at hstep
  split at hstep
  · next packet rest hwork =>
      split at hstep
      · cases hstep
      · next hidle =>
          obtain ⟨mMutex, hlock, rfl⟩ := Option.map_eq_some_iff.mp hstep
          have hrest : View.NoLogin (leaves packet rest) := by
            have hnone : View.NoLogin rest := h.linked.view.noLogin_rest hwork
            unfold leaves
            split
            · refine ApplicationState.noLogin_cons ?_ hnone
              rintro _ ⟨_, _, _, rfl⟩ heq
              cases heq
            · exact hnone
          have hsharers : mMutex.sharers = insert thread w.mMutex.sharers :=
            Finset.ext fun _ => (SharedMutex.mem_lockShared hlock).trans Finset.mem_insert.symm
          refine ⟨⟨h.linked.view.setWork hrest, h.linked.onlyRetains⟩,
            h.logged.keeps ⟨rfl, rfl⟩, ?_, ⟨h.displays.waiting, h.displays.shows⟩, ?_⟩
          · intro thread' client answered hmem
            by_cases hthread : thread' = thread
            · subst hthread
              have hleft : .reply client answered ∈ leaves packet rest := by
                have hself : (w.broker.setWork thread' (leaves packet rest)).work thread' =
                    leaves packet rest := Function.update_self _ _ _
                rw [← hself]
                exact hmem
              refine h.answers thread' client answered ?_
              rw [hwork]
              unfold leaves at hleft
              split at hleft
              · rcases List.mem_cons.mp hleft with heq | hold
                · cases heq
                · exact List.mem_cons_of_mem _ hold
              · exact List.mem_cons_of_mem _ hleft
            · have hother : (w.broker.setWork thread (leaves packet rest)).work thread' =
                  w.broker.work thread' := Function.update_of_ne hthread _ _
              exact h.answers thread' client answered (hother ▸ hmem)
          · rw [hsharers]
            refine h.handsOut.beginPublish ⟨packet, w.broker.fanOut packet⟩ ?_ hidle
            rw [Publish.deliveries, List.map_map]
            exact ApplicationState.nodup_recipients
  · cases hstep

theorem Sound.deliver (h : w.Sound) {thread : Thread}
    (hstep : w.step (.deliver thread) = some w') : w'.Sound := by
  simp only [step] at hstep
  split at hstep
  · next number d rest hfanOut =>
      split at hstep
      · cases hstep
      · next t hok =>
          cases hstep
          have hpublishes := ApplicationState.sendPublish_publishes hok
          refine ⟨?_, ?_, ?_, h.displays.deliver h.linked.view.toAttached hok _, ?_⟩
          · exact ⟨hpublishes.view_eq ▸ h.linked.view, fun request hrequest =>
              (hpublishes.internal request hrequest).elim (h.linked.onlyRetains request) id⟩
          · rw [stored_append, stored_sessionMessage]
            exact h.logged.deliver hok
          · intro thread' client packet hmem
            have hwork : t.work = w.broker.work := congrArg View.work hpublishes.view_eq
            exact h.answers thread' client packet (hwork ▸ hmem)
          · refine h.handsOut.deliver hfanOut
              (fun m hm => ApplicationState.sessionMessage_eq_some hm) fun hnone session heq => ?_
            unfold ApplicationState.sessionMessage at hnone
            rw [heq] at hnone
            cases hnone
  · cases hstep

theorem Sound.step (h : w.Sound) {action : PublisherAction} (hstep : w.step action = some w') :
    w'.Sound := by
  cases action with
  | broker action => exact h.broker hstep
  | beginPublish thread => exact h.beginPublish hstep
  | deliver thread => exact h.deliver hstep
  | endPublish thread =>
      simp only [Publishers.step] at hstep
      split at hstep
      · next hdone =>
          cases hstep
          exact ⟨h.linked, h.logged, h.answers, h.displays, h.handsOut.endPublish hdone.2⟩
      · cases hstep

/-- What the connections have been sent, and in which order. -/
structure InOrder (w : Publishers τ) : Prop where
  /-- A publish that is over has reached the sessions of all its recipients. -/
  complete : ∀ thread, thread ∉ w.mMutex.sharers →
    ∀ n p, (w.published thread)[n]? = some p → ∀ d ∈ p.deliveries,
      ∀ session, d.subscriber = .session session →
        ∃ m ∈ w.log, m.publish = some (thread, n) ∧ m.message.delivery = d
  ordered : w.log.Pairwise Precedes
  shows : ∀ client, Shows w.log (w.broker.connections client).mPersistentClientState
    (w.broker.sentTo client)

omit [SubscriptionTree τ] in
theorem Sound.inOrder (h : w.Sound) : w.InOrder where
  complete := by
    intro thread hidle n p hp d hd session hsession
    refine (h.handsOut.complete thread n p hp d hd session hsession).resolve_right ?_
    rintro ⟨-, hmem⟩
    rw [h.handsOut.idle thread hidle] at hmem
    cases hmem
  ordered := h.handsOut.ordered
  shows := h.displays.shows

/-- Over every run, however the fan-outs of the threads interleave. -/
theorem deliversInOrder_of_isRun {retained : AList fun _ : ByteString => RetainedMessage}
    {run : List (PublisherAction × Publishers τ)}
    (hrun : Runs.IsRun (Runs.StepOf Publishers.step) (initial retained) run) :
    Runs.AllStates InOrder run := by
  intro x hx
  have hsound : x.2.Sound := hrun.invariant (fun _ _ _ h hstep => h.step hstep)
    (sound_initial retained) x hx
  exact hsound.inOrder

end

/-- Two threads publish to a client at once, and one of them once more. -/
def overtaken : List PublisherAction :=
  let publishes (id : Nat) : PublisherAction :=
    .broker (.start id (.publish ⟨[0x74], [0x68, 0x69], .qos1, .no, []⟩))
  Resumptions.subscribed.map .broker ++
    [publishes 0, publishes 1, .beginPublish (.other 0), .beginPublish (.other 1),
      .deliver (.other 1), .endPublish (.other 1), .deliver (.other 0), .endPublish (.other 0),
      publishes 1, .beginPublish (.other 1), .deliver (.other 1), .endPublish (.other 1)]

/-- The one that begins later is through first. -/
theorem deliversInOrder_overtaken :
    let run := Runs.runOf (@step SubscriptionList .standard _) (initial ∅) overtaken
    (Runs.last (initial ∅) run).log.map (·.publish) =
        [some (.other 1, 0), some (.other 0, 0), some (.other 1, 1)] ∧
      Runs.AllStates (@InOrder SubscriptionList .standard) run := by
  intro run
  refine ⟨by decide +kernel, ?_⟩
  exact @deliversInOrder_of_isRun SubscriptionList .standard _ ∅ run
    (Runs.isRun_runOf (@step SubscriptionList .standard _) _ _)

end Publishers

end NioevMqtt
