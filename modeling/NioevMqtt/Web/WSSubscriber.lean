-- SUMMARY: Websockets: over every run, what is sent is what was published, in order, as long as no buffer changes under a callback that still waits.
import Mathlib.Data.List.Infix
import NioevMqtt.Library.Buffers
import NioevMqtt.Library.Runs

/-!
# Websockets

`WSSubscriber::publish` defers a callback that has captured the payload as it was passed, a
view of a buffer of the publisher. The web loop runs the callbacks in order, later.
-/

namespace NioevMqtt

open Buffers

/-- A buffer that payloads are views of: the receive buffer of a connection, a retained
message, a packet in a queue. -/
abbrev BufferId := Nat

abbrev WebsocketId := Nat

/-- What the callback has captured; `mActive` is shared with its subscriber. -/
structure DeferredSend where
  subscriber : WebsocketId
  payload : BufferView BufferId
deriving DecidableEq

structure WebLoop where
  memory : Memory BufferId UInt8 := fun _ => none
  /-- `*mActive`; `none` where there has been no such websocket. -/
  mActive : WebsocketId → Option Bool := fun _ => none
  deferred : List DeferredSend := []
  /-- What `mWS->send` was given. What a view of released memory shows is not known. -/
  sent : WebsocketId → List (Option (List UInt8)) := fun _ => []
  /-- What the payloads showed when `publish` was called. Remembered here only, as is what had
  been sent when the subscriber was deactivated. -/
  published : WebsocketId → List (List UInt8) := fun _ => []
  sentBefore : WebsocketId → Option (List (Option (List UInt8))) := fun _ => none

namespace WebLoop

inductive Action where
  /-- The owner of a buffer writes to it, or gets it anew. -/
  | assign (buffer : BufferId) (bytes : List UInt8)
  | release (buffer : BufferId)
  | openWebsocket (subscriber : WebsocketId)
  /-- The handler `.close`, which calls `deactivate`. -/
  | closeWebsocket (subscriber : WebsocketId)
  | publish (subscriber : WebsocketId) (payload : BufferView BufferId)
  | runDeferred

def step (s : WebLoop) : Action → Option WebLoop
  | .assign buffer bytes => some { s with memory := Function.update s.memory buffer (some bytes) }
  | .release buffer => some { s with memory := Function.update s.memory buffer none }
  | .openWebsocket subscriber =>
    if s.mActive subscriber = none then
      some { s with mActive := Function.update s.mActive subscriber (some true) }
    else none
  | .closeWebsocket subscriber =>
    if s.mActive subscriber = some true then
      some { s with
        mActive := Function.update s.mActive subscriber (some false)
        sentBefore := Function.update s.sentBefore subscriber (some (s.sent subscriber)) }
    else none
  | .publish subscriber payload =>
    match payload.read s.memory with
    | none => none
    | some bytes =>
      -- The request of a closed websocket to be unsubscribed may not have been executed yet.
      if s.mActive subscriber = none then none
      else
        some { s with
          deferred := s.deferred ++ [⟨subscriber, payload⟩]
          published := Function.update s.published subscriber (s.published subscriber ++ [bytes]) }
  | .runDeferred =>
    match s.deferred with
    | [] => none
    | send :: deferred =>
      if s.mActive send.subscriber = some true then
        some { s with
          deferred
          sent := Function.update s.sent send.subscriber
            (s.sent send.subscriber ++ [send.payload.read s.memory]) }
      else some { s with deferred }

def initial : WebLoop := {}

/-! ## Delivery -/

/-- What has been sent to a websocket is what was published, in order; and nothing has been
sent since its subscriber was deactivated. -/
structure Delivers (s : WebLoop) : Prop where
  inOrder : ∀ subscriber, s.sent subscriber <+: (s.published subscriber).map some
  stopped : ∀ subscriber, ∀ before ∈ s.sentBefore subscriber, s.sent subscriber = before

/-- No buffer is written to or released so that the payload changes of a callback that
waits for an active subscriber. -/
def LeavesWaiting (s : WebLoop) : Action → Prop
  | .assign buffer bytes =>
    ∀ send ∈ s.deferred, s.mActive send.subscriber = some true →
      send.payload.buffer = buffer → send.payload.shows (some bytes) = send.payload.read s.memory
  | .release buffer =>
    ∀ send ∈ s.deferred, s.mActive send.subscriber = some true → send.payload.buffer ≠ buffer
  | _ => True

/-! ## What the callbacks will send -/

variable {s t : WebLoop} {subscriber : WebsocketId} {action : Action}

/-- The payloads of the callbacks that wait for a websocket. -/
def waiting (s : WebLoop) (subscriber : WebsocketId) : List (BufferView BufferId) :=
  (s.deferred.filter (·.subscriber = subscriber)).map DeferredSend.payload

/-- What was published has been sent or waits, as long as the subscriber is active. -/
inductive Accounts (s : WebLoop) (subscriber : WebsocketId) : Prop where
  | unopened (hactive : s.mActive subscriber = none) (hwaiting : s.waiting subscriber = [])
      (hsent : s.sent subscriber = []) (hpublished : s.published subscriber = [])
      (hbefore : s.sentBefore subscriber = none)
  | active (hactive : s.mActive subscriber = some true)
      (hall : s.sent subscriber ++ (s.waiting subscriber).map (·.read s.memory) =
        (s.published subscriber).map some)
      (hbefore : s.sentBefore subscriber = none)
  | closed (hactive : s.mActive subscriber = some false)
      (hbegins : s.sent subscriber <+: (s.published subscriber).map some)
      (hbefore : s.sentBefore subscriber = some (s.sent subscriber))

theorem Accounts.delivers (h : ∀ subscriber, s.Accounts subscriber) : s.Delivers := by
  constructor
  · intro subscriber
    cases h subscriber with
    | unopened hactive hwaiting hsent => exact hsent ▸ List.nil_prefix
    | active hactive hall => exact hall ▸ List.prefix_append _ _
    | closed hactive hbegins => exact hbegins
  · intro subscriber before hmem
    cases h subscriber with
    | unopened hactive hwaiting hsent hpublished hbefore =>
        rw [hbefore] at hmem
        cases hmem
    | active hactive hall hbefore =>
        rw [hbefore] at hmem
        cases hmem
    | closed hactive hbegins hbefore =>
        rw [hbefore] at hmem
        exact Option.some.inj hmem

/-- What a step does to the others does not matter. -/
theorem Accounts.of_frame (h : s.Accounts subscriber)
    (hactive : t.mActive subscriber = s.mActive subscriber)
    (hsent : t.sent subscriber = s.sent subscriber)
    (hpublished : t.published subscriber = s.published subscriber)
    (hbefore : t.sentBefore subscriber = s.sentBefore subscriber)
    (hwaiting : s.mActive subscriber ≠ some false → t.waiting subscriber = s.waiting subscriber)
    (hread : s.mActive subscriber = some true → ∀ payload ∈ s.waiting subscriber,
      payload.read t.memory = payload.read s.memory) : t.Accounts subscriber := by
  cases h with
  | unopened hactive' hwaiting' hsent' hpublished' hbefore' =>
      have hsame := hwaiting (by rw [hactive']; rintro ⟨⟩)
      exact .unopened (hactive.trans hactive') (hsame.trans hwaiting') (hsent.trans hsent')
        (hpublished.trans hpublished') (hbefore.trans hbefore')
  | active hactive' hall hbefore' =>
      have hsame := hwaiting (by rw [hactive']; rintro ⟨⟩)
      refine .active (hactive.trans hactive') ?_ (hbefore.trans hbefore')
      rw [hsent, hpublished, hsame, List.map_congr_left (hread hactive')]
      exact hall
  | closed hactive' hbegins hbefore' =>
      refine .closed (hactive.trans hactive') ?_ ?_
      · rw [hsent, hpublished]
        exact hbegins
      · rw [hsent, hbefore]
        exact hbefore'

theorem mem_waiting {payload : BufferView BufferId} :
    payload ∈ s.waiting subscriber ↔ ⟨subscriber, payload⟩ ∈ s.deferred := by
  unfold waiting
  rw [List.mem_map]
  constructor
  · rintro ⟨send, hmem, rfl⟩
    obtain ⟨hdeferred, heq⟩ := List.mem_filter.mp hmem
    rw [decide_eq_true_iff] at heq
    exact heq ▸ hdeferred
  · intro hmem
    exact ⟨_, List.mem_filter.mpr ⟨hmem, decide_eq_true rfl⟩, rfl⟩

/-! ## The steps -/

/-- A buffer that changes is not looked at by the callbacks of active subscribers, or shows
them the same. -/
theorem Accounts.update {buffer : BufferId} {contents : Option (List UInt8)}
    (h : s.Accounts subscriber)
    (hleaves : ∀ send ∈ s.deferred, s.mActive send.subscriber = some true →
      send.payload.buffer = buffer → send.payload.shows contents = send.payload.read s.memory) :
    Accounts { s with memory := Function.update s.memory buffer contents } subscriber := by
  refine h.of_frame rfl rfl rfl rfl (fun _ => rfl) fun hactive payload hmem => ?_
  exact BufferView.read_update (hleaves _ (mem_waiting.mp hmem) hactive)

theorem waiting_append (send : DeferredSend) (s : WebLoop) (subscriber : WebsocketId) :
    waiting { s with deferred := s.deferred ++ [send] } subscriber =
      s.waiting subscriber ++ if send.subscriber = subscriber then [send.payload] else [] := by
  unfold waiting
  rw [List.filter_append, List.map_append, List.filter_singleton]
  by_cases heq : send.subscriber = subscriber
  · rw [if_pos heq, decide_eq_true heq]
    rfl
  · rw [if_neg heq, decide_eq_false heq]
    rfl

theorem waiting_cons {send : DeferredSend} {deferred : List DeferredSend}
    (h : s.deferred = send :: deferred) (subscriber : WebsocketId) :
    s.waiting subscriber = (if send.subscriber = subscriber then [send.payload] else []) ++
      waiting { s with deferred } subscriber := by
  unfold waiting
  rw [h, List.filter_cons]
  split
  · next heq => rw [if_pos (of_decide_eq_true heq)]; rfl
  · next hne => rw [if_neg (fun heq => hne (decide_eq_true heq))]; rfl

/-- A step that leaves the payloads of waiting callbacks as they are keeps the accounts of
every websocket. -/
theorem Accounts.step (h : ∀ subscriber, s.Accounts subscriber) (hleaves : s.LeavesWaiting action)
    (hstep : s.step action = some t) (subscriber : WebsocketId) : t.Accounts subscriber := by
  cases action with
  | assign buffer bytes =>
      cases hstep
      exact (h subscriber).update hleaves
  | release buffer =>
      cases hstep
      exact (h subscriber).update fun send hmem hactive heq =>
        absurd heq (hleaves send hmem hactive)
  | openWebsocket opened =>
      obtain ⟨hnone, hstep⟩ := Option.ite_none_right_eq_some.mp hstep
      cases hstep
      by_cases heq : subscriber = opened
      · subst heq
        cases h subscriber with
        | unopened hactive hwaiting hsent hpublished hbefore =>
            refine .active (Function.update_self _ _ _) ?_ hbefore
            show s.sent subscriber ++ (s.waiting subscriber).map _ = (s.published subscriber).map some
            rw [hsent, hwaiting, hpublished]
            rfl
        | active hactive => cases hnone.symm.trans hactive
        | closed hactive => cases hnone.symm.trans hactive
      · exact (h subscriber).of_frame (Function.update_of_ne heq _ _) rfl rfl rfl (fun _ => rfl)
          fun _ _ _ => rfl
  | closeWebsocket closed =>
      obtain ⟨hsome, hstep⟩ := Option.ite_none_right_eq_some.mp hstep
      cases hstep
      by_cases heq : subscriber = closed
      · subst heq
        cases h subscriber with
        | unopened hactive => cases hsome.symm.trans hactive
        | active hactive hall hbefore =>
            refine .closed (Function.update_self _ _ _) ?_ (Function.update_self _ _ _)
            exact hall ▸ List.prefix_append _ _
        | closed hactive => cases hsome.symm.trans hactive
      · exact (h subscriber).of_frame (Function.update_of_ne heq _ _) rfl rfl
          (Function.update_of_ne heq _ _) (fun _ => rfl) fun _ _ _ => rfl
  | publish receiver payload =>
      simp only [WebLoop.step] at hstep
      split at hstep
      · cases hstep
      · next bytes hread =>
          obtain ⟨hopen, hstep⟩ := Option.ite_none_left_eq_some.mp hstep
          cases hstep
          have hwaiting := waiting_append ⟨receiver, payload⟩ s subscriber
          by_cases heq : subscriber = receiver
          · subst heq
            rw [if_pos rfl] at hwaiting
            have hpublished : Function.update s.published subscriber
                (s.published subscriber ++ [bytes]) subscriber = s.published subscriber ++ [bytes] :=
              Function.update_self _ _ _
            cases h subscriber with
            | unopened hactive => exact absurd hactive hopen
            | active hactive hall hbefore =>
                refine .active hactive ?_ hbefore
                refine Eq.trans ?_ (congrArg (List.map some) hpublished.symm)
                show s.sent subscriber ++ (waiting { s with
                  deferred := s.deferred ++ [⟨subscriber, payload⟩] } subscriber).map
                    (·.read s.memory) = _
                rw [hwaiting, List.map_append, ← List.append_assoc, hall, List.map_append,
                  List.map_singleton, List.map_singleton, hread]
            | closed hactive hbegins hbefore =>
                have hlonger : s.sent subscriber <+: (s.published subscriber ++ [bytes]).map some := by
                  rw [List.map_append]
                  exact hbegins.trans (List.prefix_append _ _)
                rw [← hpublished] at hlonger
                exact .closed hactive hlonger hbefore
          · rw [if_neg (fun hsame => heq hsame.symm), List.append_nil] at hwaiting
            exact (h subscriber).of_frame rfl rfl (Function.update_of_ne heq _ _) rfl
              (fun _ => hwaiting) fun _ _ _ => rfl
  | runDeferred =>
      simp only [WebLoop.step] at hstep
      split at hstep
      · cases hstep
      · next send deferred hdeferred =>
          have hwaiting := waiting_cons hdeferred subscriber
          split at hstep
          · next hsends =>
              cases hstep
              by_cases heq : subscriber = send.subscriber
              · subst heq
                rw [if_pos rfl] at hwaiting
                cases h send.subscriber with
                | unopened hactive => cases hactive.symm.trans hsends
                | active hactive hall hbefore =>
                    refine .active hactive ?_ hbefore
                    rw [hwaiting, List.map_append, ← List.append_assoc] at hall
                    show Function.update s.sent send.subscriber _ send.subscriber ++
                      (waiting { s with deferred } send.subscriber).map _ = _
                    rw [Function.update_self]
                    exact hall
                | closed hactive => cases hactive.symm.trans hsends
              · rw [if_neg (fun hsame => heq hsame.symm), List.nil_append] at hwaiting
                exact (h subscriber).of_frame rfl (Function.update_of_ne heq _ _) rfl rfl
                  (fun _ => hwaiting.symm) fun _ _ _ => rfl
          · next hstopped =>
              cases hstep
              refine (h subscriber).of_frame rfl rfl rfl rfl (fun hopen => ?_) fun _ _ _ => rfl
              -- The callback was not one of this websocket: it is active, or has none.
              have hother : send.subscriber ≠ subscriber := by
                rintro rfl
                cases h send.subscriber with
                | unopened hactive hnone =>
                    rw [hwaiting, if_pos rfl] at hnone
                    cases hnone
                | active hactive => exact hstopped hactive
                | closed hactive => exact hopen hactive
              rw [if_neg hother, List.nil_append] at hwaiting
              exact hwaiting.symm

theorem accounts_initial (subscriber : WebsocketId) : initial.Accounts subscriber :=
  .unopened rfl rfl rfl rfl rfl

/-! ## Over the runs -/

/-- Over a run in which no payload of a callback changes that waits for an active
subscriber, every websocket is sent what was published, in order, and nothing once its
subscriber has been deactivated. -/
theorem delivers_of_leavesWaiting {run : List (Action × WebLoop)}
    (hrun : Runs.IsRun (Runs.StepOf step) initial run)
    (hleaves : Runs.AllSteps LeavesWaiting initial run) : Runs.AllStates Delivers run := by
  have haccounts : Runs.AllStates (fun s => ∀ subscriber, s.Accounts subscriber) run :=
    hrun.invariant_of_allSteps (fun _ _ _ h hleaves hstep => Accounts.step h hleaves hstep)
      accounts_initial hleaves
  exact fun x hx => Accounts.delivers (haccounts x hx)

/-! ## A connection's receive buffer -/

/-- A connection receives a `PUBLISH`; its payload starts at the seventh byte of the buffer. -/
def receivePublish (subscriber : WebsocketId) (payload : List UInt8) : List Action :=
  [.release 0, .assign 0 ([0x00, 0x04, 0x74, 0x65, 0x73, 0x74] ++ payload),
    .publish subscriber ⟨0, 6, payload.length⟩]

instance (s : WebLoop) (action : Action) : Decidable (s.LeavesWaiting action) :=
  match action with
  | .assign _ _ => inferInstanceAs (Decidable (∀ send ∈ s.deferred, _ → _ → _))
  | .release _ => inferInstanceAs (Decidable (∀ send ∈ s.deferred, _ → _))
  | .openWebsocket _ | .closeWebsocket _ | .publish _ _ | .runDeferred => isTrue trivial

/-- The loop runs the callback before the next packet comes, and the websocket is closed before
the last one. -/
def runInTime : List Action :=
  [.openWebsocket 0] ++ receivePublish 0 [0x41] ++ [.runDeferred] ++ receivePublish 0 [0x42] ++
    [.runDeferred] ++ receivePublish 0 [0x43] ++ [.closeWebsocket 0, .release 0, .runDeferred]

theorem delivers_runInTime :
    (Runs.runOf step initial runInTime).length = 15 ∧
      Runs.AllStates Delivers (Runs.runOf step initial runInTime) :=
  ⟨by decide, delivers_of_leavesWaiting (Runs.isRun_runOf step _ _) (by decide)⟩

/-- The next packet comes before the callback runs. -/
theorem not_delivers_overwritten :
    ¬ Runs.AllStates Delivers (Runs.runOf step initial
      ([.openWebsocket 0] ++ receivePublish 0 [0x41] ++ receivePublish 0 [0x42] ++
        [.runDeferred])) := by
  intro h
  have hsent : Runs.AllStates (fun s => s.sent 0 <+: (s.published 0).map some)
      (Runs.runOf step initial ([.openWebsocket 0] ++ receivePublish 0 [0x41] ++
        receivePublish 0 [0x42] ++ [.runDeferred])) := fun x hx => (h x hx).inOrder 0
  exact absurd hsent (by decide)

end WebLoop

end NioevMqtt
