-- SUMMARY: What is retained under a topic: over every run of the threads the last message of the thread that publishes on it, as long as its retain requests take their turn.
import NioevMqtt.Broker.ProgramOrder
import NioevMqtt.Broker.Execution

/-!
# Retained messages

Every retained message is a change request of the thread that publishes it, and what
is retained is what the executed ones have left. A retain request is executed at once
where the lock can be taken, and may then overtake an earlier one in a queue.
-/

namespace NioevMqtt

abbrev RetainedMessages := AList fun _ : ByteString => RetainedMessage

open Outcome

/-! ## Retain requests -/

/-- What a retained message leaves under its topic. -/
def retainedMessage (packet : MQTTPacket) : Option RetainedMessage :=
  if packet.payload = [] then none else some ⟨packet.payload, packet.qos, packet.properties⟩

/-- What a change request does to the retained messages. -/
def visitRetained (messages : RetainedMessages) : ChangeRequest → RetainedMessages
  | .retain packet =>
    if packet.payload = [] then messages.erase packet.topic
    else messages.insert packet.topic ⟨packet.payload, packet.qos, packet.properties⟩
  | _ => messages

/-- The message a change request retains under a topic. -/
def ChangeRequest.retains (topic : ByteString) : ChangeRequest → Option MQTTPacket
  | .retain packet => if packet.topic = topic then some packet else none
  | _ => none

theorem lookup_visitRetained (messages : RetainedMessages) (change : ChangeRequest)
    (topic : ByteString) :
    (visitRetained messages change).lookup topic =
      match change.retains topic with
      | none => messages.lookup topic
      | some packet => retainedMessage packet := by
  cases change with
  | retain packet =>
      simp only [visitRetained, ChangeRequest.retains, retainedMessage]
      by_cases htopic : packet.topic = topic
      · rw [← htopic, if_pos rfl]
        simp only
        split
        · exact AList.lookup_erase _ messages
        · exact AList.lookup_insert messages
      · rw [if_neg htopic]
        simp only
        split
        · exact AList.lookup_erase_ne (Ne.symm htopic)
        · exact AList.lookup_insert_ne (Ne.symm htopic)
  | _ => rfl

/-- After many requests the last one that retains something under the topic counts. -/
theorem lookup_foldl_visitRetained (messages : RetainedMessages) (changes : List ChangeRequest)
    (topic : ByteString) :
    (changes.foldl visitRetained messages).lookup topic =
      match (changes.filterMap (·.retains topic)).getLast? with
      | none => messages.lookup topic
      | some packet => retainedMessage packet := by
  induction changes using List.reverseRecOn with
  | nil => rfl
  | append_singleton changes change ih =>
      rw [List.foldl_append, List.foldl_cons, List.foldl_nil, lookup_visitRetained,
        List.filterMap_append, List.filterMap_cons]
      cases change.retains topic with
      | none => simpa only [List.filterMap_nil, List.append_nil] using ih
      | some packet => simp only [List.filterMap_nil, List.getLast?_concat]

/-! ## The broker's requests -/

namespace ApplicationState

variable {τ : Type} {s t : ApplicationState τ}

theorem mRetainedMessages_replaceCurrentClient (s : ApplicationState τ) (session : SessionId)
    (client : ConnectionId) (cleanSession : CleanSession) (style : ReplaceStyle) :
    (s.replaceCurrentClient session client cleanSession style).mRetainedMessages =
      s.mRetainedMessages := by
  simp only [replaceCurrentClient]
  split
  · rfl
  · rfl

theorem mRetainedMessages_foldl_sendData {α : Type} (packet : α → EncodedPacket) (l : List α)
    (client : ConnectionId) (s : ApplicationState τ) :
    (l.foldl (fun s a => s.sendData client (packet a)) s).mRetainedMessages = s.mRetainedMessages := by
  induction l generalizing s with
  | nil => rfl
  | cons a l ih => exact ih (s.sendData client (packet a))

variable [Libnioev] [SubscriptionTree τ]

theorem mRetainedMessages_logoutClient {thread : Thread} {client : ConnectionId}
    (h : s.logoutClient thread client = .ok t) : t.mRetainedMessages = s.mRetainedMessages := by
  unfold logoutClient at h
  split at h
  · cases h
    rfl
  · simp only at h
    split at h
    · cases h
      rfl
    · next session hattached =>
        obtain ⟨u, hwill, hrest⟩ := bind_eq_ok h
        obtain ⟨v, hdrop, hdelete⟩ := bind_eq_ok hrest
        have hpublished : u.mRetainedMessages = s.mRetainedMessages := by
          unfold publishWill at hwill
          split at hwill
          · cases hwill
            rfl
          · exact (publishInternal_publishes hwill).mRetainedMessages_eq
        have hdropped : v.mRetainedMessages = u.mRetainedMessages := by
          obtain ⟨⟨old, dropped⟩, -, hset⟩ := bind_eq_ok hdrop
          cases hset
          rfl
        cases hdelete
        rw [← hpublished, ← hdropped]
        unfold deleteCleanSession
        split
        · split
          · rfl
          · rfl
        · rfl

theorem mRetainedMessages_loginExisting {thread : Thread} {client : ConnectionId}
    {session : SessionId} {cleanSession : CleanSession}
    (h : s.loginExisting thread client session cleanSession = .ok t) :
    t.mRetainedMessages = s.mRetainedMessages := by
  have hlogout : ∀ {style u},
      (s.replaceCurrentClient session client cleanSession style).logoutExisting thread
        (s.sessions session).mCurrentClient = .ok u → u.mRetainedMessages = s.mRetainedMessages := by
    intro style u hu
    rw [← mRetainedMessages_replaceCurrentClient s session client cleanSession style]
    unfold logoutExisting at hu
    split at hu
    · cases hu
      rfl
    · exact mRetainedMessages_logoutClient hu
  unfold loginExisting at h
  simp only at h
  split at h
  · obtain ⟨u, hu, hsent⟩ := bind_eq_ok h
    cases hsent
    show u.mRetainedMessages = s.mRetainedMessages
    exact hlogout hu
  · obtain ⟨u, hu, hsent⟩ := bind_eq_ok h
    cases hsent
    rw [← hlogout hu]
    refine (mRetainedMessages_foldl_sendData _ _ client _).trans ?_
    exact mRetainedMessages_foldl_sendData _ _ client _

/-- Executing a change request does to the retained messages what the request says. -/
theorem mRetainedMessages_executeChangeRequest {thread : Thread} {generatedId : ByteString}
    {change : ChangeRequest} (h : s.executeChangeRequest thread generatedId change = .ok t) :
    t.mRetainedMessages = visitRetained s.mRetainedMessages change := by
  have hvisit := (executeChangeRequest_eq s thread generatedId _).symm.trans h
  cases change with
  | subscribe subscriber topic qos type =>
      exact (subscribeClientInternal_publishes hvisit).mRetainedMessages_eq
  | retain packet =>
      cases hvisit
      unfold retain
      simp only [visitRetained]
      split
      · rfl
      · rfl
  | loginClient client clientId cleanSession =>
      simp only [visit, loginClient] at hvisit
      split at hvisit
      · cases hvisit
        rfl
      · split at hvisit
        · exact mRetainedMessages_loginExisting hvisit
        · cases hvisit
          exact mRetainedMessages_replaceCurrentClient _ _ client cleanSession .cleanSession
  | logoutClient client => exact mRetainedMessages_logoutClient hvisit
  | _ =>
      cases hvisit
      rfl

end ApplicationState

def Ticket.request (ticket : Ticket ChangeRequest) : Request := ⟨ticket.change, ticket.thread⟩

namespace RequestQueues

section

variable {τ : Type} {s t : ApplicationState τ} {q : RequestQueues ChangeRequest RetainedMessages}

/-- The queues and the retained messages are those of the broker. -/
structure Shows (q : RequestQueues ChangeRequest RetainedMessages) (s : ApplicationState τ) :
    Prop where
  mQueue : q.mQueue.map Ticket.request = s.mQueue
  mQueueInternal : q.mQueueInternal.map Ticket.request = s.mQueueInternal
  state : q.state = s.mRetainedMessages

/-- The recorded holder of the lock has a queue of its own. -/
theorem Shows.requestChange (h : Shows q s) (ticket : Ticket ChangeRequest) :
    Shows (q.enqueue ticket.thread ticket)
      (s.requestChange ticket.request (q.mCurrentRWHolderOfMMutex = some ticket.thread)) := by
  unfold enqueue
  simp only [ApplicationState.requestChange, Ticket.request, decide_eq_true_eq]
  split
  · refine ⟨h.mQueue, ?_, h.state⟩
    simp only [Requests.pushInternal, List.map_append, h.mQueueInternal]
    rfl
  · refine ⟨?_, h.mQueueInternal, h.state⟩
    simp only [Requests.push, List.map_append, h.mQueue]
    rfl

/-- A request that is executed does the same to the retained messages. -/
theorem Shows.state_executeChangeRequest [Libnioev] [SubscriptionTree τ] (h : Shows q s)
    {ticket : Ticket ChangeRequest} {thread : Thread} {generatedId : ByteString}
    (hexecute : s.executeChangeRequest thread generatedId ticket.change = .ok t) :
    (executeChangeRequest visitRetained q ticket).state = t.mRetainedMessages := by
  rw [ApplicationState.mRetainedMessages_executeChangeRequest hexecute, ← h.state]
  rfl

end

/-- Requests are queued as by every broker that the queues show, and a request does to the
retained messages what it does there. -/
def ActsAsBroker (q : RequestQueues ChangeRequest RetainedMessages) : Prop :=
  ∀ (τ : Type) [Libnioev] [SubscriptionTree τ] (s : ApplicationState τ), Shows q s →
    ∀ ticket : Ticket ChangeRequest,
      Shows (q.enqueue ticket.thread ticket)
          (s.requestChange ticket.request (q.mCurrentRWHolderOfMMutex = some ticket.thread)) ∧
        ∀ thread generatedId t,
          s.executeChangeRequest thread generatedId ticket.change = .ok t →
            (executeChangeRequest visitRetained q ticket).state = t.mRetainedMessages

theorem actsAsBroker (q : RequestQueues ChangeRequest RetainedMessages) : q.ActsAsBroker :=
  fun _ _ _ _ hshows ticket => ⟨hshows.requestChange ticket,
    fun _ _ _ hexecute => hshows.state_executeChangeRequest hexecute⟩

variable {q : RequestQueues ChangeRequest RetainedMessages} {thread : Thread} {topic : ByteString}

/-! ## The last message -/

/-- The topic a request is about, if it is a retain request. -/
def retainTopic : ChangeRequest → Option ByteString
  | .retain packet => some packet.topic
  | _ => none

/-- Retain requests of one thread for one topic. -/
def RetainsSame (t t' : Ticket ChangeRequest) : Prop :=
  t.thread = t'.thread ∧ retainTopic t.change ≠ none ∧ retainTopic t.change = retainTopic t'.change

instance : DecidableRel RetainsSame := fun t t' =>
  inferInstanceAs (Decidable (t.thread = t'.thread ∧ retainTopic t.change ≠ none ∧ _ = _))

/-- The retained messages a thread has published on a topic. -/
def retainsOf (thread : Thread) (topic : ByteString) (ticket : Ticket ChangeRequest) : Bool :=
  ticket.thread = thread ∧ retainTopic ticket.change = some topic

/-- When no request waits and a thread is in no call, what is retained under a topic
is the last of its messages, if no other thread has published on the topic. -/
def HoldsLast (q : RequestQueues ChangeRequest RetainedMessages) : Prop :=
  q.mQueue = [] → q.mQueueInternal = [] → ∀ thread topic, q.calls thread = none →
    (∀ ticket ∈ q.made, retainTopic ticket.change = some topic → ticket.thread = thread) →
    ∀ last ∈ ((q.made.map (·.change)).filterMap (·.retains topic)).getLast?,
      q.state.lookup topic = retainedMessage last

theorem retains_eq_none_iff {change : ChangeRequest} :
    change.retains topic = none ↔ retainTopic change ≠ some topic := by
  cases change with
  | retain packet =>
      simp only [ChangeRequest.retains, retainTopic, ite_eq_right_iff, reduceCtorEq, imp_false, ne_eq,
        Option.some.injEq]
  | _ => exact iff_of_true rfl (fun h => by cases h)

/-- Only the requests of the thread matter, if no other thread publishes on the topic. -/
theorem filterMap_retains {l : List (Ticket ChangeRequest)}
    (honly : ∀ ticket ∈ l, retainTopic ticket.change = some topic → ticket.thread = thread) :
    (l.map (·.change)).filterMap (·.retains topic) =
      ((l.filter (retainsOf thread topic)).map (·.change)).filterMap (·.retains topic) := by
  induction l with
  | nil => rfl
  | cons ticket l ih =>
      have hrest := ih fun t ht => honly t (List.mem_cons_of_mem _ ht)
      by_cases hticket : retainTopic ticket.change = some topic
      · have hmem : retainsOf thread topic ticket = true :=
          decide_eq_true ⟨honly ticket List.mem_cons_self hticket, hticket⟩
        rw [List.filter_cons_of_pos hmem, List.map_cons, List.map_cons, List.filterMap_cons,
          List.filterMap_cons, hrest]
      · have hnot : ¬ retainsOf thread topic ticket = true := fun hmem =>
          hticket (of_decide_eq_true hmem).2
        rw [List.filter_cons_of_neg hnot, List.map_cons, List.filterMap_cons,
          retains_eq_none_iff.mpr hticket]
        exact hrest

/-- Over every run in which the retain requests take their turn, the last message of a
topic is retained; and requests do in the run what they do in the broker. -/
theorem holdsLast_of_isRun {messages : RetainedMessages}
    {run : List (Action ChangeRequest × RequestQueues ChangeRequest RetainedMessages)}
    (hrun : Runs.IsRun (Runs.StepOf (step visitRetained)) (initial messages) run)
    (hturn : Runs.AllSteps (TakesTurn RetainsSame) (initial messages) run) :
    Runs.AllStates HoldsLast run ∧ Runs.AllStates ActsAsBroker run := by
  refine ⟨?_, fun x _ => actsAsBroker x.2⟩
  intro x hx hqueue hinternal thread topic hcalls honly last hlast
  have hK : Requests.MadeBy (retainsOf thread topic) thread :=
    fun _ hticket => (of_decide_eq_true hticket).1
  have hrelated : ∀ t t', retainsOf thread topic t = true → retainsOf thread topic t' = true →
      RetainsSame t t' := by
    intro t t' ht ht'
    obtain ⟨hthread, htopic⟩ := of_decide_eq_true ht
    obtain ⟨hthread', htopic'⟩ := of_decide_eq_true ht'
    refine ⟨hthread.trans hthread'.symm, ?_, htopic.trans htopic'.symm⟩
    rw [htopic]
    exact Option.some_ne_none topic
  have hinTurn := (inTurn_of_isRun hrun hK hrelated hturn x hx).inOrder
  rw [Requests.everywhere, hqueue, hinternal, Requests.called_of_none hcalls] at hinTurn
  simp only [List.append_nil] at hinTurn
  have hexecuted := (programOrder_of_isRun hrun).1 x hx
  rw [state_of_isRun hrun x hx, lookup_foldl_visitRetained,
    filterMap_retains fun ticket hmem => honly ticket (hexecuted.requested ticket hmem), ← hinTurn,
    ← filterMap_retains honly, hlast]

/-! ## A message that is overtaken -/

/-- A receiver publishes a retained message while another thread has the lock. -/
def retainWhileLocked (packet : MQTTPacket) : List (Action ChangeRequest) :=
  [.lock .timers] ++ Action.requestAsync (.receiver 0) (.retain packet) .trySyncThenAsync ++
    [.unlock .timers]

/-- And one when the lock is free. -/
def retainAtOnce (packet : MQTTPacket) : List (Action ChangeRequest) :=
  Action.requestSync (.receiver 0) (.retain packet) .trySyncThenAsync

def executeRetain : List (Action ChangeRequest) :=
  [.lock .worker, .execute, .drained, .unlock .worker]

def firstRetained : MQTTPacket := ⟨[0x74], [0x61], .qos0, .yes, []⟩

def secondRetained : MQTTPacket := ⟨[0x74], [0x62], .qos0, .yes, []⟩

theorem holdsLast_secondRetained :
    (Runs.runOf (step visitRetained) (initial ∅)
        (retainWhileLocked firstRetained ++ executeRetain ++ retainAtOnce secondRetained)).length = 11 ∧
      Runs.AllStates HoldsLast (Runs.runOf (step visitRetained) (initial ∅)
        (retainWhileLocked firstRetained ++ executeRetain ++ retainAtOnce secondRetained)) :=
  ⟨by decide +kernel, (holdsLast_of_isRun (Runs.isRun_runOf _ _ _) (by decide +kernel)).1⟩

/-- The second message is retained before the first one is. -/
theorem not_holdsLast_overtaken :
    ∃ run, Runs.IsRun (Runs.StepOf (step visitRetained)) (initial ∅) run ∧
      ¬ Runs.AllStates HoldsLast run := by
  refine ⟨_, Runs.isRun_runOf _ _
    (retainWhileLocked firstRetained ++ retainAtOnce secondRetained ++ executeRetain), fun h => ?_⟩
  have hfirst : Runs.AllStates (fun q : RequestQueues ChangeRequest RetainedMessages =>
      q.mQueue = [] → q.mQueueInternal = [] → q.calls (.receiver 0) = none →
        (∀ ticket ∈ q.made, retainTopic ticket.change = some [0x74] → ticket.thread = .receiver 0) →
        ∀ last ∈ ((q.made.map (·.change)).filterMap (·.retains [0x74])).getLast?,
          q.state.lookup [0x74] = retainedMessage last) _ :=
    fun x hx hqueue hinternal => h x hx hqueue hinternal (.receiver 0) [0x74]
  revert hfirst
  decide +kernel

end RequestQueues

end NioevMqtt
