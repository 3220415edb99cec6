-- SUMMARY: Acknowledged subscriptions: over every run a published message reaches those who have been told so, exactly when no answered request that it depends on still waits.
import NioevMqtt.Broker.Outgoing
import NioevMqtt.Broker.PendingSubscriptions

/-!
# Acknowledged subscriptions

A `SUBSCRIBE` is answered by the thread that receives it, as soon as its requests are
queued. Beside the broker stand the answers that have been sent and not been overtaken by
another request of the same client. A message is published when its thread has the lock.
-/

namespace NioevMqtt

/-- What a client has been told about a filter of its session. -/
structure Answer where
  client : ConnectionId
  session : SessionId
  filter : ByteString
  answer : TopicAnswer
deriving DecidableEq, Repr

/-- The answer that a packet gets, and the filters it is about. -/
def ClientPacket.question : ClientPacket → Option (TopicAnswer × List ByteString)
  | .subscribe _ topics true => some (.suback, topics.map (·.1))
  | .unsubscribe _ topics true => some (.unsuback, topics)
  | _ => none

/-- The filter that a piece of work is about, and the answer it is to make true. -/
def Work.asks : Work → Option (TopicAnswer × ByteString)
  | .subscribe _ topic _ | .request (.subscribe (.session _) topic _ _) => some (.suback, topic)
  | .unsubscribe _ topic | .request (.unsubscribe (.session _) topic) => some (.unsuback, topic)
  | _ => none

/-- A broker, what the packets that its threads handle have asked, and the answers that
stand. -/
structure Acknowledged (τ : Type) where
  broker : ApplicationState τ
  asked : ConnectionId → Option (TopicAnswer × List ByteString) := fun _ => none
  answers : List Answer := []

namespace ApplicationState

variable {τ : Type}

/-- The session that a request is about still has the connection whose thread makes it. -/
def Owns (s : ApplicationState τ) (request : Request) : Prop :=
  ∀ session ∈ request.change.session?,
    (s.sessions session).mCurrentClient.map Thread.receiver = some request.thread

instance (s : ApplicationState τ) (request : Request) : Decidable (s.Owns request) :=
  inferInstanceAs (Decidable (∀ session ∈ request.change.session?, _ = _))

/-- The client has asked for something else since it was told. -/
def Supersedes (s : ApplicationState τ) (request : Request) (e : Answer) : Prop :=
  s.Owns request ∧ ∃ a ∈ request.change.asks e.filter e.session, a ≠ e.answer

instance (s : ApplicationState τ) (request : Request) (e : Answer) :
    Decidable (s.Supersedes request e) :=
  inferInstanceAs (Decidable (_ ∧ ∃ a ∈ request.change.asks e.filter e.session, a ≠ e.answer))

end ApplicationState

namespace Acknowledged

section

variable {τ : Type}

/-- The answers that a step sends. -/
def answered (w : Acknowledged τ) : ApplicationState.Action → List Answer
  | .proceed (.receiver client) _ =>
    match w.broker.work (.receiver client), w.asked client,
      (w.broker.connections client).mPersistentClientState with
    | .reply _ _ :: _, some (answer, topics), some session =>
      topics.map fun topic => ⟨client, session, topic, answer⟩
    | _, _, _ => []
  | _ => []

def askedAfter (w : Acknowledged τ) :
    ApplicationState.Action → ConnectionId → Option (TopicAnswer × List ByteString)
  | .packet client packet => Function.update w.asked client packet.question
  | _ => w.asked

/-- An answer stands until it is superseded. -/
def answersAfter (w : Acknowledged τ) (action : ApplicationState.Action) : List Answer :=
  (w.answers.filter fun e => ∀ request ∈ w.broker.made action, ¬ w.broker.Supersedes request e) ++
    w.answered action

/-- Every request about subscriptions is made while its connection has the session. -/
def OwnsRequests (w : Acknowledged τ) (action : ApplicationState.Action) : Prop :=
  ∀ request ∈ w.broker.made action, w.broker.Owns request

instance (w : Acknowledged τ) (action : ApplicationState.Action) :
    Decidable (w.OwnsRequests action) :=
  inferInstanceAs (Decidable (∀ request ∈ w.broker.made action, w.broker.Owns request))

variable [Libnioev] [SubscriptionTree τ]

def step (w : Acknowledged τ) (action : ApplicationState.Action) : Option (Acknowledged τ) :=
  (w.broker.stepOk action).map fun t => ⟨t, w.askedAfter action, w.answersAfter action⟩

def initial (retained : AList fun _ : ByteString => RetainedMessage) : Acknowledged τ where
  broker := .initial retained

variable [SubscriptionEntries τ]

/-- The step hands its message to a session whose client has been told that it is
subscribed and has not been logged out since; and it does not come by the filter that a
client has been told is no longer subscribed. -/
def Honours (s : ApplicationState τ) (action : ApplicationState.Action) (e : Answer) : Prop :=
  match e.answer with
  | .suback =>
    (s.connections e.client).mPersistentClientState = some e.session →
      Subscriber.session e.session ∈ (s.deliveries action).2.map (·.subscriber)
  | .unsuback => ¬ SubscriptionTree.Stores s.mSubscriptions e.filter (.session e.session)

/-- What is published is handed out as the answers say. -/
def InForce (w : Acknowledged τ) (action : ApplicationState.Action) : Prop :=
  ∀ packet ∈ w.broker.published action, ∀ e ∈ w.answers,
    SubscriptionEntries.matchesTopic τ e.filter packet.topic = true → Honours w.broker action e

/-- The session of the client has a subscription that matches the topic, or no longer the
one it has been told is removed. -/
def Fulfilled (s : ApplicationState τ) (topic : ByteString) (e : Answer) : Prop :=
  match e.answer with
  | .suback =>
    (s.connections e.client).mPersistentClientState = some e.session →
      ∃ sub ∈ s.matching topic, sub.subscriber = .session e.session
  | .unsuback => ¬ SubscriptionTree.Stores s.mSubscriptions e.filter (.session e.session)

/-- Where a message is published while a request waits that has been answered, the answer
is fulfilled without it. -/
def NoneAwaited (w : Acknowledged τ) (action : ApplicationState.Action) : Prop :=
  ∀ packet ∈ w.broker.published action, ∀ request ∈ w.broker.mQueue, ∀ e ∈ w.answers,
    SubscriptionEntries.matchesTopic τ e.filter packet.topic = true →
      request.change.asks e.filter e.session = some e.answer → Fulfilled w.broker packet.topic e

end

end Acknowledged

/-! ## Answers that stand -/

/-- What is to become of the filter of an answer that stands. Where the session has another
connection, the client is owed nothing. -/
def Answer.Stands {τ : Type} [SubscriptionTree τ] (v : View τ) (e : Answer) : Prop :=
  match e.answer with
  | .suback =>
    v.mState e.client = .connected ∧
      (v.attached e.client = some e.session → v.Becomes .suback e.filter e.session)
  | .unsuback => v.Becomes .unsuback e.filter e.session

namespace View

variable {τ : Type} [SubscriptionTree τ]

/-- What a client has asked of a filter is to become of it in its session. -/
def Promised (v : View τ) (client : ConnectionId) (a : TopicAnswer) (filter : ByteString) : Prop :=
  v.mState client = .connected ∧
    ∀ session, v.attached client = some session → v.Becomes a filter session

theorem Promised.stands {v : View τ} {client : ConnectionId} {a : TopicAnswer} {filter : ByteString}
    (h : v.Promised client a filter) {session : SessionId}
    (hattached : v.attached client = some session) :
    Answer.Stands v ⟨client, session, filter, a⟩ := by
  cases a with
  | suback => exact ⟨h.1, h.2 session⟩
  | unsuback => exact h.2 session hattached

/-- What is left to do of a packet that asks for that answer about those topics: nothing
that sends it, or what makes it true, filter by filter, and then the answer. -/
inductive Answering (v : View τ) (client : ConnectionId) (a : TopicAnswer)
    (topics : List ByteString) : List Work → Prop
  | silent {work} (hsilent : ApplicationState.NoReply work) : Answering v client a topics work
  | reply {items receiver packet} (hitems : ∀ work ∈ items, ∃ topic, work.asks = some (a, topic))
      (htopics : ∀ topic ∈ topics,
        (∃ work ∈ items, work.asks = some (a, topic)) ∨ v.Promised client a topic) :
      Answering v client a topics (items ++ [.reply receiver packet])

end View

namespace ApplicationState

variable {τ : Type} [Libnioev] [SubscriptionTree τ] {s t : ApplicationState τ}
  {action : Action} {c : ConnectionId} {a : TopicAnswer} {topic : ByteString}

omit [Libnioev] [SubscriptionTree τ] in
/-- A request that a client makes about its own session. -/
theorem attached_of_owns (h : s.Linked) {request : Request} (howns : s.Owns request)
    {session : SessionId} (hsession : request.change.session? = some session)
    {client : ConnectionId} (hthread : request.thread = .receiver client) :
    s.view.attached client = some session := by
  have hmap := howns session hsession
  rw [hthread] at hmap
  obtain ⟨current, hcurrent, heq⟩ := Option.map_eq_some_iff.mp hmap
  cases heq
  exact (h.view.inverse client session).mpr hcurrent

omit [Libnioev] [SubscriptionTree τ] in
/-- A request about the session of a client is its own. -/
theorem thread_of_owns (h : s.Linked) {request : Request} (howns : s.Owns request)
    {session : SessionId} (hsession : request.change.session? = some session)
    {client : ConnectionId} (hattached : s.view.attached client = some session) :
    request.thread = .receiver client := by
  have hcurrent : (s.sessions session).mCurrentClient = some client :=
    (h.view.inverse client session).mp hattached
  have hmap := howns session hsession
  rw [hcurrent] at hmap
  exact (Option.some.inj hmap).symm

variable [LawfulSubscriptionTree τ]

/-- An answer that is not superseded stands. -/
theorem stands_step {e : Answer} (h : s.Linked) (hstep : s.step action = some (.ok t))
    (hstands : e.Stands s.view) (howns : ∀ request ∈ s.made action, s.Owns request)
    (hnew : ∀ request ∈ s.made action, ¬ s.Supersedes request e) : e.Stands t.view := by
  have hkeeps := keepsClients_step h hstep
  have hbecomes : s.view.Becomes e.answer e.filter e.session →
      (e.answer = .suback → ∃ c, s.view.attached c = some e.session ∧
        t.view.attached c = some e.session) → t.view.Becomes e.answer e.filter e.session := by
    intro hs hkept
    by_cases hasked : ∃ request ∈ s.made action,
        ∃ a, request.change.asks e.filter e.session = some a
    · obtain ⟨request, hmade, a, hasks⟩ := hasked
      have ha : a = e.answer := by
        by_contra hne
        exact hnew request hmade ⟨howns request hmade, a, hasks, hne⟩
      exact becomes_made h hstep hmade (ha ▸ hasks)
    · refine becomes_step h hstep hs (fun request hmade => ?_) hkept
      exact Option.eq_none_iff_forall_not_mem.mpr fun a hasks => hasked ⟨request, hmade, a, hasks⟩
  obtain ⟨client, session, filter, answer⟩ := e
  cases answer with
  | suback =>
      obtain ⟨hconnected, hsuback⟩ := hstands
      refine ⟨hkeeps.connected client hconnected, fun hafter => ?_⟩
      have hbefore := hkeeps.attached client session hconnected hafter
      exact hbecomes (hsuback hbefore) fun _ => ⟨client, hbefore, hafter⟩
  | unsuback => exact hbecomes hstands fun heq => by cases heq

/-- What is promised stays so until the client asks for something else. -/
theorem promised_step (h : s.Linked) (hstep : s.step action = some (.ok t))
    (hpromised : s.view.Promised c a topic) (howns : ∀ request ∈ s.made action, s.Owns request)
    (hsame : ∀ request ∈ s.made action, request.thread = .receiver c →
      ∀ session b, request.change.asks topic session = some b → b = a) :
    t.view.Promised c a topic := by
  have hkeeps := keepsClients_step h hstep
  refine ⟨hkeeps.connected c hpromised.1, fun session hafter => ?_⟩
  have hbefore := hkeeps.attached c session hpromised.1 hafter
  have hbecomes := hpromised.2 session hbefore
  by_cases hasked : ∃ request ∈ s.made action, ∃ b, request.change.asks topic session = some b
  · obtain ⟨request, hmade, b, hasks⟩ := hasked
    have hthread := thread_of_owns h (howns request hmade) (ChangeRequest.session?_of_asks hasks)
      hbefore
    have hb := hsame request hmade hthread session b hasks
    exact becomes_made h hstep hmade (hb ▸ hasks)
  · refine becomes_step h hstep hbecomes (fun request hmade => ?_) fun _ => ⟨c, hbefore, hafter⟩
    exact Option.eq_none_iff_forall_not_mem.mpr fun b hasks => hasked ⟨request, hmade, b, hasks⟩

omit [LawfulSubscriptionTree τ] in
/-- A client that makes a request about its own session is promised what it asks. -/
theorem promised_made (h : s.Linked) (hstep : s.step action = some (.ok t)) {request : Request}
    (hmade : s.made action = some request) (howns : s.Owns request)
    (hthread : request.thread = .receiver c) {session : SessionId}
    (hasks : request.change.asks topic session = some a) : t.view.Promised c a topic := by
  have hkeeps := keepsClients_step h hstep
  have hbefore := attached_of_owns h howns (ChangeRequest.session?_of_asks hasks) hthread
  have hconnected := h.view.connected c (by rw [hbefore]; exact Option.some_ne_none session)
  refine ⟨hkeeps.connected c hconnected, fun session' hafter => ?_⟩
  have hsession := hkeeps.attached c session' hconnected hafter
  cases hbefore.symm.trans hsession
  exact becomes_made h hstep hmade hasks

/-! ## From the packet to its answer -/

omit [Libnioev] [SubscriptionTree τ] [LawfulSubscriptionTree τ] in
theorem noReply_cons {work : Work} {rest : List Work}
    (hwork : ∀ client packet, work ≠ .reply client packet) (hrest : NoReply rest) :
    NoReply (work :: rest) := by
  intro client packet hmem
  rcases List.mem_cons.mp hmem with heq | hold
  · exact hwork client packet heq.symm
  · exact hrest client packet hold

omit [Libnioev] [SubscriptionTree τ] [LawfulSubscriptionTree τ] in
theorem noReply_workAfter {work : Work} {rest : List Work} (h : NoReply (work :: rest)) :
    NoReply (s.workAfter work rest) := by
  have hrest : NoReply rest := fun client packet hmem => h client packet (List.mem_cons_of_mem _ hmem)
  cases work with
  | subscribe client topic qos =>
      simp only [workAfter]
      split
      · exact noReply_singleton fun _ _ heq => by cases heq
      · exact noReply_cons (fun _ _ heq => by cases heq) hrest
  | unsubscribe client topic =>
      simp only [workAfter]
      split
      · exact noReply_singleton fun _ _ heq => by cases heq
      · exact noReply_cons (fun _ _ heq => by cases heq) hrest
  | publish packet =>
      simp only [workAfter]
      split
      · exact noReply_cons (fun _ _ heq => by cases heq) hrest
      · exact hrest
  | request change => exact hrest
  | reply client packet => exact hrest
  | throws client => exact noReply_singleton fun _ _ heq => by cases heq

omit [Libnioev] [SubscriptionTree τ] [LawfulSubscriptionTree τ] in
/-- A piece of work about a filter becomes a request, or its client has no session. -/
theorem workAfter_asks {work : Work} (h : work.asks = some (a, topic))
    (hrequest : ∀ change, work ≠ .request change) (rest : List Work) :
    NoReply (s.workAfter work rest) ∨
      ∃ work', s.workAfter work rest = work' :: rest ∧ work'.asks = some (a, topic) := by
  cases work with
  | subscribe client topic qos =>
      simp only [workAfter]
      split
      · exact .inl (noReply_singleton fun _ _ heq => by cases heq)
      · exact .inr ⟨_, rfl, h⟩
  | unsubscribe client topic =>
      simp only [workAfter]
      split
      · exact .inl (noReply_singleton fun _ _ heq => by cases heq)
      · exact .inr ⟨_, rfl, h⟩
  | request change => exact absurd rfl (hrequest change)
  | _ => cases h

omit [Libnioev] [SubscriptionTree τ] [LawfulSubscriptionTree τ] in
/-- A request among that work asks what the work does, and nothing else. -/
theorem asks_of_work {change : ChangeRequest} (h : (Work.request change).asks = some (a, topic)) :
    (∃ session, change.asks topic session = some a) ∧
      ∀ filter session b, change.asks filter session = some b → b = a := by
  cases change with
  | subscribe subscriber filter qos type =>
      cases subscriber with
      | session id =>
          cases h
          refine ⟨⟨id, if_pos ⟨rfl, rfl⟩⟩, fun filter session b hb => ?_⟩
          exact (Option.some.inj (Option.ite_none_right_eq_some.mp hb).2).symm
      | other id => cases h
  | unsubscribe subscriber filter =>
      cases subscriber with
      | session id =>
          cases h
          refine ⟨⟨id, if_pos ⟨rfl, rfl⟩⟩, fun filter session b hb => ?_⟩
          exact (Option.some.inj (Option.ite_none_right_eq_some.mp hb).2).symm
      | other id => cases h
  | _ => cases h

section

variable {lockTaken : Bool} {topics : List ByteString} {items : List Work} {receiver : ConnectionId}
  {packet : EncodedPacket}

/-- A request is queued: what it asks is promised. -/
theorem answering_request {change : ChangeRequest} (h : s.Linked)
    (hwork : s.work (.receiver c) = .request change :: (items ++ [.reply receiver packet]))
    (hstep : s.step (.proceed (.receiver c) lockTaken) = some (.ok t))
    (howns : ∀ request ∈ s.made (.proceed (.receiver c) lockTaken), s.Owns request)
    (hitems : ∀ item ∈ .request change :: items, ∃ topic, item.asks = some (a, topic))
    (htopics : ∀ topic ∈ topics, (∃ item ∈ .request change :: items, item.asks = some (a, topic)) ∨
      s.view.Promised c a topic) :
    t.view.Answering c a topics (items ++ [.reply receiver packet]) := by
  have hmade : s.made (.proceed (.receiver c) lockTaken) = some ⟨change, .receiver c⟩ := by
    simp only [made, hwork]
  obtain ⟨topic, htopic⟩ := hitems _ List.mem_cons_self
  obtain ⟨⟨session, hasks⟩, honly⟩ := asks_of_work htopic
  apply View.Answering.reply
  · exact fun item hitem => hitems item (List.mem_cons_of_mem _ hitem)
  · intro filter hfilter
    rcases htopics filter hfilter with ⟨item, hitem, hitemAsks⟩ | hpromised
    · rcases List.mem_cons.mp hitem with rfl | hitem
      · cases htopic.symm.trans hitemAsks
        exact .inr (promised_made h hstep hmade (howns _ hmade) rfl hasks)
      · exact .inl ⟨item, hitem, hitemAsks⟩
    · refine .inr (promised_step h hstep hpromised howns fun request hrequest _ => ?_)
      cases hmade.symm.trans hrequest
      exact honly filter

/-- Any other piece of work about a filter becomes a request, or the packet is given up. -/
theorem answering_work {work : Work} (h : s.Linked)
    (hwork : s.work (.receiver c) = work :: (items ++ [.reply receiver packet]))
    (hstep : s.step (.proceed (.receiver c) lockTaken) = some (.ok t))
    (hrequest : ∀ change, work ≠ .request change)
    (hitems : ∀ item ∈ work :: items, ∃ topic, item.asks = some (a, topic))
    (htopics : ∀ topic ∈ topics, (∃ item ∈ work :: items, item.asks = some (a, topic)) ∨
      s.view.Promised c a topic) :
    t.view.Answering c a topics (s.workAfter work (items ++ [.reply receiver packet])) := by
  have hnone : ∀ request, request ∉ s.made (.proceed (.receiver c) lockTaken) := by
    intro request hmade
    simp only [made, hwork] at hmade
    split at hmade
    · next heq => exact hrequest _ (List.cons.inj heq).1
    · cases hmade
  obtain ⟨topic, htopic⟩ := hitems work List.mem_cons_self
  rcases workAfter_asks htopic hrequest (items ++ [.reply receiver packet]) with
    hsilent | ⟨work', hafter, hasks⟩
  · exact .silent hsilent
  · rw [hafter, ← List.cons_append]
    apply View.Answering.reply
    · intro item hitem
      rcases List.mem_cons.mp hitem with rfl | hitem
      · exact ⟨topic, hasks⟩
      · exact hitems item (List.mem_cons_of_mem _ hitem)
    · intro filter hfilter
      rcases htopics filter hfilter with ⟨item, hitem, hitemAsks⟩ | hpromised
      · rcases List.mem_cons.mp hitem with rfl | hitem
        · cases htopic.symm.trans hitemAsks
          exact .inl ⟨work', List.mem_cons_self, hasks⟩
        · exact .inl ⟨item, List.mem_cons_of_mem _ hitem, hitemAsks⟩
      · exact .inr (promised_step h hstep hpromised (fun request hmade => absurd hmade (hnone request))
          fun request hmade => absurd hmade (hnone request))

/-- The thread of a client gets on with its packet. -/
theorem answering_proceed (h : s.Linked)
    (hstep : s.step (.proceed (.receiver c) lockTaken) = some (.ok t))
    (howns : ∀ request ∈ s.made (.proceed (.receiver c) lockTaken), s.Owns request)
    (hanswering : s.view.Answering c a topics (s.work (.receiver c))) :
    t.view.Answering c a topics (t.work (.receiver c)) := by
  cases steps_of_step hstep with
  | @proceed _ _ work rest _ hwork hok =>
      have hafter : t.work (.receiver c) = s.workAfter work rest :=
        (congrFun (work_proceed hok) _).trans (View.setWork_work _ _ _)
      rw [hwork] at hanswering
      rw [hafter]
      generalize hall : work :: rest = all at hanswering
      cases hanswering with
      | silent hsilent => exact .silent (noReply_workAfter (hall ▸ hsilent))
      | @reply items receiver packet hitems htopics =>
          cases items with
          | nil =>
              cases hall
              exact .silent fun _ _ hmem => by cases hmem
          | cons item items =>
              obtain ⟨rfl, hrest⟩ := List.cons.inj hall
              have hrest : rest = items ++ [.reply receiver packet] := hrest
              subst hrest
              by_cases hrequest : ∃ change, work = .request change
              · obtain ⟨change, rfl⟩ := hrequest
                exact answering_request h hwork hstep howns hitems htopics
              · exact answering_work h hwork hstep (fun change heq => hrequest ⟨change, heq⟩) hitems
                  htopics

end

/-- Another thread may take part of what has been promised away only by a request that it
does not own. -/
theorem answering_step {topics : List ByteString} (h : s.Linked)
    (hstep : s.step action = some (.ok t)) (hpacket : ∀ packet, action ≠ .packet c packet)
    (howns : ∀ request ∈ s.made action, s.Owns request)
    (hanswering : s.view.Answering c a topics (s.work (.receiver c))) :
    t.view.Answering c a topics (t.work (.receiver c)) := by
  -- Only the client's own thread makes requests for its session.
  by_cases hproceed : ∃ lockTaken, action = .proceed (.receiver c) lockTaken
  · obtain ⟨lockTaken, rfl⟩ := hproceed
    exact answering_proceed h hstep howns hanswering
  · have hother : ∀ request ∈ s.made action, request.thread ≠ .receiver c := by
      intro request hmade hthread
      cases action with
      | proceed thread lockTaken =>
          simp only [made] at hmade
          split at hmade
          · cases hmade
            exact hproceed ⟨lockTaken, congrArg (Action.proceed · lockTaken) hthread⟩
          · cases hmade
      | _ => cases hmade
    rcases work_step h hstep hpacket fun lockTaken heq => hproceed ⟨lockTaken, heq⟩ with
      hsame | ⟨-, hsilent⟩
    · rw [hsame]
      generalize s.work (.receiver c) = work at hanswering
      cases hanswering with
      | silent hsilent => exact .silent hsilent
      | reply hitems htopics =>
          refine .reply hitems fun topic htopic => (htopics topic htopic).imp_right fun hpromised => ?_
          exact promised_step h hstep hpromised howns fun request hmade hthread =>
            absurd hthread (hother request hmade)
    · exact .silent hsilent

omit [LawfulSubscriptionTree τ] in
/-- A packet leaves its thread with what it has asked to do. -/
theorem answering_packet {packet : ClientPacket} {topics : List ByteString}
    (hquestion : packet.question = some (a, topics)) :
    (s.handlePacketReceived c packet).view.Answering c a topics
      ((s.handlePacketReceived c packet).work (.receiver c)) := by
  cases packet with
  | subscribe id filters complete =>
      cases complete with
      | false => cases hquestion
      | true =>
          cases hquestion
          simp only [handlePacketReceived, setWork, Function.update_self, endTopics]
          refine .reply (fun work hwork => ?_) fun topic htopic => .inl ?_
          · obtain ⟨filter, -, rfl⟩ := List.mem_map.mp hwork
            exact ⟨filter.1, rfl⟩
          · obtain ⟨filter, hfilter, rfl⟩ := List.mem_map.mp htopic
            exact ⟨_, List.mem_map_of_mem hfilter, rfl⟩
  | unsubscribe id filters complete =>
      cases complete with
      | false => cases hquestion
      | true =>
          cases hquestion
          simp only [handlePacketReceived, setWork, Function.update_self, endTopics]
          refine .reply (fun work hwork => ?_) fun topic htopic => .inl ?_
          · obtain ⟨filter, -, rfl⟩ := List.mem_map.mp hwork
            exact ⟨filter, rfl⟩
          · exact ⟨_, List.mem_map_of_mem htopic, rfl⟩
  | _ => cases hquestion

end ApplicationState

namespace Acknowledged

section

variable {τ : Type} [Libnioev] [SubscriptionTree τ] {w w' : Acknowledged τ}
  {action : ApplicationState.Action}

/-! ## The invariant -/

/-- All answers stand, and every packet is on its way to one that will. -/
structure Sound (w : Acknowledged τ) : Prop where
  linked : w.broker.Linked
  stands : ∀ e ∈ w.answers, e.Stands w.broker.view
  answering : ∀ client a topics, w.asked client = some (a, topics) →
    w.broker.view.Answering client a topics (w.broker.work (.receiver client))

omit [Libnioev] in
theorem sound_initial (retained : AList fun _ : ByteString => RetainedMessage) :
    (initial retained : Acknowledged τ).Sound where
  linked := ApplicationState.linked_initial retained
  stands := fun _ hmem => by cases hmem
  answering := fun _ _ _ hasked => by cases hasked

omit [Libnioev] in
/-- When an answer is sent, all that it says has been promised. -/
theorem Sound.answered (h : w.Sound) {e : Answer} (hmem : e ∈ w.answered action) :
    e.Stands w.broker.view := by
  unfold Acknowledged.answered at hmem
  split at hmem
  · next client _ =>
      split at hmem
      · next receiver packet rest a topics session hwork hasked hattached =>
          obtain ⟨topic, htopic, rfl⟩ := List.mem_map.mp hmem
          have hanswering := h.answering client a topics hasked
          rw [hwork] at hanswering
          generalize hall : Work.reply receiver packet :: rest = all at hanswering
          cases hanswering with
          | silent hsilent => exact absurd (hall ▸ List.mem_cons_self) (hsilent receiver packet)
          | @reply items _ _ hitems htopics =>
              -- Whatever makes a filter true comes before the answer.
              cases items with
              | nil =>
                  rcases htopics topic htopic with ⟨_, hitem, -⟩ | hpromised
                  · cases hitem
                  · exact hpromised.stands hattached
              | cons item items =>
                  obtain ⟨filter, hasks⟩ := hitems item List.mem_cons_self
                  rw [← (List.cons.inj hall).1] at hasks
                  cases hasks
      · cases hmem
  · cases hmem

omit [Libnioev] [SubscriptionTree τ] in
/-- A step that sends an answer makes no request. -/
theorem made_of_answered {e : Answer} (hmem : e ∈ w.answered action) :
    w.broker.made action = none := by
  unfold Acknowledged.answered at hmem
  split at hmem
  · split at hmem
    · next hwork _ _ => simp only [ApplicationState.made, hwork]
    · cases hmem
  · cases hmem

theorem sound_step [LawfulSubscriptionTree τ] (h : w.Sound) (howns : w.OwnsRequests action)
    (hstep : w.step action = some w') : w'.Sound := by
  obtain ⟨t, hok, rfl⟩ := Option.map_eq_some_iff.mp hstep
  have hbroker := ApplicationState.step_of_stepOk hok
  refine ⟨ApplicationState.linked_stepOk h.linked hok, fun e hmem => ?_, fun c a topics hasked => ?_⟩
  · rcases List.mem_append.mp hmem with hold | hnew
    · obtain ⟨hold, hkept⟩ := List.mem_filter.mp hold
      exact ApplicationState.stands_step h.linked hbroker (h.stands e hold) howns
        (of_decide_eq_true hkept)
    · refine ApplicationState.stands_step h.linked hbroker (h.answered hnew) howns ?_
      intro request hmade
      cases (made_of_answered hnew).symm.trans hmade
  · by_cases hpacket : ∃ packet, action = .packet c packet
    · obtain ⟨packet, rfl⟩ := hpacket
      simp only [askedAfter, Function.update_self] at hasked
      cases ApplicationState.steps_of_step hbroker with
      | packet => exact ApplicationState.answering_packet hasked
    · have hpacket : ∀ packet, action ≠ .packet c packet := fun packet heq => hpacket ⟨packet, heq⟩
      have hbefore : w.asked c = some (a, topics) := by
        cases action with
        | packet client packet =>
            have hne : c ≠ client := by
              rintro rfl
              exact hpacket packet rfl
            exact (Function.update_of_ne hne _ _).symm.trans hasked
        | _ => exact hasked
      exact ApplicationState.answering_step h.linked hbroker hpacket howns (h.answering c a topics hbefore)

/-! ## What is in force -/

variable [SubscriptionEntries τ] [LawfulMatching τ]

omit [Libnioev] in
/-- A message that is published is handed to the sessions with a matching subscription. -/
theorem honours_iff {packet : MQTTPacket} {e : Answer}
    (hpublished : w.broker.published action = some packet) :
    Honours w.broker action e ↔ Fulfilled w.broker packet.topic e := by
  have hdeliveries : (w.broker.deliveries action).2.map (·.subscriber) =
      (w.broker.fanOut packet).map Prod.fst := by
    cases action with
    | proceed thread lockTaken =>
        simp only [ApplicationState.published] at hpublished
        split at hpublished
        · next hwork =>
            cases hpublished
            simp only [ApplicationState.deliveries, hwork, List.map_map]
            rfl
        · cases hpublished
    | _ => cases hpublished
  unfold Honours Fulfilled
  rw [hdeliveries]
  cases e.answer with
  | suback => exact imp_congr_right fun _ => ApplicationState.mem_map_fanOut
  | unsuback => exact Iff.rfl

omit [Libnioev] in
/-- Whoever is stored under a filter has a subscription that matches what the filter does. -/
theorem exists_matching {s : ApplicationState τ} {filter topic : ByteString} {subscriber : Subscriber}
    (hstores : SubscriptionTree.Stores s.mSubscriptions filter subscriber)
    (hmatches : SubscriptionEntries.matchesTopic τ filter topic = true) :
    ∃ sub ∈ s.matching topic, sub.subscriber = subscriber := by
  obtain ⟨entry, hentry, hkey⟩ := List.mem_map.mp ((LawfulMatching.stores_iff _ _ _).mp hstores)
  obtain ⟨rfl, hsubscriber⟩ := Prod.mk.inj hkey
  exact ⟨entry.2, List.mem_map.mpr ⟨entry, List.mem_filter.mpr ⟨hentry, hmatches⟩, rfl⟩, hsubscriber⟩

omit [Libnioev] in
/-- An answer that stands and that no request is awaited for is fulfilled. -/
theorem fulfilled_of_stands {e : Answer} {topic : ByteString} (h : e.Stands w.broker.view)
    (hmatches : SubscriptionEntries.matchesTopic τ e.filter topic = true)
    (hnone : ∀ request ∈ w.broker.mQueue,
      request.change.asks e.filter e.session ≠ some e.answer) : Fulfilled w.broker topic e := by
  obtain ⟨client, session, filter, answer⟩ := e
  cases answer with
  | suback =>
      intro hattached
      have hstores := (h.2 hattached).settled hnone
      exact exists_matching hstores hmatches
  | unsuback => exact View.Becomes.settled h hnone

omit [Libnioev] in
theorem inForce_iff (h : w.Sound) : w.InForce action ↔ w.NoneAwaited action := by
  constructor
  · intro hforce packet hpublished request _ e hmem hmatches _
    exact (honours_iff hpublished).mp (hforce packet hpublished e hmem hmatches)
  · intro hnone packet hpublished e hmem hmatches
    refine (honours_iff hpublished).mpr ?_
    by_cases hawaited : ∃ request ∈ w.broker.mQueue,
        request.change.asks e.filter e.session = some e.answer
    · obtain ⟨request, hrequest, hasks⟩ := hawaited
      exact hnone packet hpublished request hrequest e hmem hmatches hasks
    · exact fulfilled_of_stands (h.stands e hmem) hmatches fun request hrequest hasks =>
        hawaited ⟨request, hrequest, hasks⟩

/-- Over every run in which requests are made by connections that have their sessions: the
acknowledged subscriptions are in force for every message, and the removed ones are not,
exactly when no answer that a message depends on still awaits its request. The messages are
handed out by the deliveries of the steps. -/
theorem inForce_iff_of_isRun [LawfulSubscriptionTree τ]
    {retained : AList fun _ : ByteString => RetainedMessage}
    {run : List (ApplicationState.Action × Acknowledged τ)}
    (hrun : Runs.IsRun (Runs.StepOf step) (initial retained) run)
    (howns : Runs.AllSteps OwnsRequests (initial retained) run) :
    (Runs.AllSteps InForce (initial retained) run ↔
      Runs.AllSteps NoneAwaited (initial retained) run) ∧
    Runs.AllSteps (fun w action => w.broker.HandsOut action) (initial retained) run := by
  refine ⟨?_, ?_⟩
  · exact (hrun.guarded howns).allSteps_congr
      (fun _ _ _ hsound hstep => sound_step hsound hstep.1 hstep.2)
      (fun _ _ hsound => inForce_iff hsound) (sound_initial retained)
  · refine hrun.allSteps_of_invariant (I := fun w => w.broker.Tabled) ?_
      (fun w action htabled => ApplicationState.handsOut_of_tabled htabled action)
      (ApplicationState.tabled_initial retained)
    intro w action w' htabled hstep
    obtain ⟨t, hok, rfl⟩ := Option.map_eq_some_iff.mp hstep
    exact htabled.step (ApplicationState.step_of_stepOk hok)

end

/-! ## A message between the answer and its request -/

section

instance (s : ApplicationState SubscriptionList) (action : ApplicationState.Action) (e : Answer) :
    Decidable (Honours s action e) := by
  unfold Honours
  split <;> infer_instance

instance (s : ApplicationState SubscriptionList) (topic : ByteString) (e : Answer) :
    Decidable (Fulfilled s topic e) := by
  unfold Fulfilled
  split <;> infer_instance

instance (w : Acknowledged SubscriptionList) (action : ApplicationState.Action) :
    Decidable (w.InForce action) :=
  inferInstanceAs (Decidable (∀ packet ∈ w.broker.published action, ∀ e ∈ w.answers,
    _ → Honours w.broker action e))

instance (w : Acknowledged SubscriptionList) (action : ApplicationState.Action) :
    Decidable (w.NoneAwaited action) :=
  inferInstanceAs (Decidable (∀ packet ∈ w.broker.published action, ∀ request ∈ w.broker.mQueue,
    ∀ e ∈ w.answers, _ → _ → Fulfilled w.broker packet.topic e))

/-- A client is logged in, and the `SUBACK` for its subscription is sent. -/
def subscribed : List ApplicationState.Action :=
  ApplicationState.Action.requestLogin 0 [0x61] .yes (fun _ => rfl) ++ [.execute []] ++
    ApplicationState.Action.requestSubscribe 0 [0x74] .qos1

/-- The `UNSUBACK` is sent. -/
def unsubscribed : List ApplicationState.Action :=
  [.packet 0 (.unsubscribe 2 [[0x74]] true), .proceed (.receiver 0) false,
    .proceed (.receiver 0) false, .proceed (.receiver 0) false]

/-- Another thread publishes on the topic. -/
def published : List ApplicationState.Action :=
  [.start 0 (.publish ⟨[0x74], [0x68, 0x69], .qos1, .no, []⟩), .proceed (.other 0) false]

/-- Both requests are executed before the messages. -/
def executedInTime : List ApplicationState.Action :=
  subscribed ++ [.execute []] ++ published ++ unsubscribed ++ [.execute []] ++ published

theorem inForce_executedInTime :
    (Runs.runOf (@step SubscriptionList .standard _) (initial ∅) executedInTime).length = 18 ∧
      Runs.AllSteps InForce (initial ∅)
        (Runs.runOf (@step SubscriptionList .standard _) (initial ∅) executedInTime) :=
  ⟨by decide +kernel, (@inForce_iff_of_isRun SubscriptionList .standard _ _ _ _ _ _
    (Runs.isRun_runOf (@step SubscriptionList .standard _) _ _)
    (by decide +kernel)).1.mpr (by decide +kernel)⟩

/-- The message comes between the `SUBACK` and the execution of the request. -/
theorem not_inForce_awaited :
    Runs.AllSteps OwnsRequests (initial ∅)
        (Runs.runOf (@step SubscriptionList .standard _) (initial ∅) (subscribed ++ published)) ∧
      ¬ Runs.AllSteps InForce (initial ∅)
        (Runs.runOf (@step SubscriptionList .standard _) (initial ∅) (subscribed ++ published)) := by
  decide +kernel

/-- A client has its session taken over while its thread is about to make a request. -/
def overtaken : List ApplicationState.Action :=
  ApplicationState.Action.requestLogin 0 [0x61] .no ApplicationState.Action.kept_of_id ++
    [.execute []] ++
    [.packet 0 (.subscribe 1 [([0x74], .qos1)] true), .proceed (.receiver 0) false] ++
    ApplicationState.Action.requestLogin 1 [0x61] .no ApplicationState.Action.kept_of_id ++
      [.execute []] ++
    [.packet 1 (.unsubscribe 2 [[0x74]] true), .proceed (.receiver 1) false,
      .proceed (.receiver 1) false, .proceed (.receiver 1) false, .execute []] ++
    [.proceed (.receiver 0) false, .execute []] ++ published

-- The request of the former connection undoes what the new one has been told.
example :
    Runs.AllSteps NoneAwaited (initial ∅)
        (Runs.runOf (@step SubscriptionList .standard _) (initial ∅) overtaken) ∧
      ¬ Runs.AllSteps InForce (initial ∅)
        (Runs.runOf (@step SubscriptionList .standard _) (initial ∅) overtaken) := by
  decide +kernel

end

end Acknowledged

end NioevMqtt
