-- SUMMARY: Scripts and websockets as subscribers: whoever is named by a subscription or by a queued request is still owned, exactly as long as none is destroyed while it is named.
import NioevMqtt.Scripting.ScriptStore

/-!
# Owners of subscribers

A script belongs to `mScripts`, the subscriber of a websocket to `openWSFds`. Both are
destroyed by their owner, without a look at the queues. Scripts and websockets are
numbered in the order in which they are made.
-/

namespace NioevMqtt

/-- The requests that name a subscriber or end one. -/
inductive SubscriberRequest where
  | subscribe (subscriber : Subscriber) (topic : ByteString) (qos : QoS)
  | unsubscribe (subscriber : Subscriber) (topic : ByteString)
  | unsubscribeFromAll (subscriber : Subscriber)
  | script (change : ScriptRequest)
deriving DecidableEq, Repr

/-- The script or websocket that a subscriber is. -/
def Subscriber.object? : Subscriber → Option Nat
  | .session _ => none
  | .other id => some id

/-- The script or websocket that a request names. -/
def SubscriberRequest.names : SubscriberRequest → Option Nat
  | .subscribe subscriber _ _ | .unsubscribe subscriber _ | .unsubscribeFromAll subscriber =>
    subscriber.object?
  | .script _ => none

/-- The subscribers and their owners. -/
structure Owners (τ : Type) where
  mSubscriptions : τ
  scripts : ScriptStore := {}
  /-- A subscriber is here from the start of `open`, which owns it until it is stored. -/
  openWSFds : List Nat := []
  /-- The websocket that `close` is at work on. -/
  closing : Option Nat := none

namespace Owners

variable {τ : Type}

/-- A script of `mScripts` has the number. -/
def OwnsScript (s : Owners τ) (id : Nat) : Prop := ∃ e ∈ s.scripts.mScripts.entries, e.2.id = id

instance (s : Owners τ) (id : Nat) : Decidable (s.OwnsScript id) :=
  inferInstanceAs (Decidable (∃ e ∈ _, _))

def Live (s : Owners τ) (id : Nat) : Prop := s.OwnsScript id ∨ id ∈ s.openWSFds

instance (s : Owners τ) (id : Nat) : Decidable (s.Live id) := inferInstanceAs (Decidable (_ ∨ _))

theorem ownsScript_iff {s : Owners τ} {id : Nat} :
    s.OwnsScript id ↔ ∃ name, s.scripts.idOf name = some id := by
  constructor
  · rintro ⟨⟨name, script⟩, hmem, hid⟩
    exact ⟨name, Option.map_eq_some_iff.mpr ⟨script, AList.mem_lookup_iff.mpr hmem, hid⟩⟩
  · rintro ⟨name, hid⟩
    obtain ⟨script, hlookup, hid⟩ := Option.map_eq_some_iff.mp hid
    exact ⟨⟨name, script⟩, AList.mem_lookup_iff.mp hlookup, hid⟩

/-- The script that ends when a request is executed. -/
def ends (s : Owners τ) : SubscriberRequest → Option Nat
  | .script change => s.scripts.ends change
  | _ => none

variable [SubscriptionTree τ]

def deleteAllSubscriptions (s : Owners τ) (id : Nat) : Owners τ :=
  { s with
    mSubscriptions := SubscriptionTree.removeAllSubscriptions s.mSubscriptions ⟨.other id, .qos0⟩ }

variable [ScriptNames]

/-- `std::visit(*this, changeRequest)`. `isDeleted` is always false. -/
def visit (s : Owners τ) : SubscriberRequest → Owners τ
  | .subscribe subscriber topic qos =>
    { s with
      mSubscriptions := SubscriptionTree.addSubscription s.mSubscriptions topic ⟨subscriber, qos⟩ }
  | .unsubscribe subscriber topic =>
    { s with
      mSubscriptions :=
        SubscriptionTree.removeSubscription s.mSubscriptions topic ⟨subscriber, .qos0⟩ }
  | .unsubscribeFromAll subscriber =>
    { s with
      mSubscriptions :=
        SubscriptionTree.removeAllSubscriptions s.mSubscriptions ⟨subscriber, .qos0⟩ }
  | .script change =>
    let s :=
      match s.ends (.script change) with
      | none => s
      | some script => s.deleteAllSubscriptions script
    { s with scripts := s.scripts.visit change }

end Owners

/-! ## Steps -/

namespace RequestQueues

variable {ρ σ : Type}

/-- The request that a step executes. -/
def executing (q : RequestQueues ρ σ) : Action ρ → Option ρ
  | .executeNow thread => (q.calls thread).map (·.change)
  | .execute => q.mQueue.head?.map (·.change)
  | .executeInternal => q.mQueueInternal.head?.map (·.change)
  | _ => none

end RequestQueues

abbrev OwnerQueues (τ : Type) := RequestQueues SubscriberRequest (Owners τ)

namespace OwnerQueues

variable {τ : Type}

/-- The thread of a script. -/
def scriptThread (script : Nat) : Thread := .other (script + 1)

/-- The thread of the websockets, which handles the requests about scripts as well. -/
def restThread : Thread := .other 0

inductive Action where
  /-- `nv.subscribe` and `nv.unsubscribe`, for one topic. -/
  | jsSubOrUnsub (script : Nat) (sub : Bool) (topic : ByteString)
  | requestScript (change : ScriptRequest) (mode : RequestChangeMode)
  | openWebsocket (topic : ByteString)
  | closeWebsocket (id : Nat)
  /-- The end of `close`. -/
  | eraseWebsocket
  /-- A request about other subscribers. -/
  | requestOther (thread : Thread) (change : SubscriberRequest) (mode : RequestChangeMode)
  | queues (action : RequestQueues.Action SubscriberRequest)

def setState (q : OwnerQueues τ) (state : Owners τ) : OwnerQueues τ := { q with state := state }

/-- `forceQuit` joins the thread of the script that ends. -/
def Joins (q : OwnerQueues τ) (action : RequestQueues.Action SubscriberRequest) : Prop :=
  ∀ change ∈ q.executing action, ∀ script ∈ q.state.ends change, q.calls (scriptThread script) = none

instance (q : OwnerQueues τ) (action : RequestQueues.Action SubscriberRequest) :
    Decidable (q.Joins action) :=
  inferInstanceAs (Decidable (∀ change ∈ q.executing action, ∀ script ∈ q.state.ends change, _))

variable [SubscriptionTree τ] [ScriptNames]

/-- A script's thread runs as long as it is owned. The REST thread does one thing after
another. -/
def step (q : OwnerQueues τ) : Action → Option (OwnerQueues τ)
  | .jsSubOrUnsub script sub topic =>
    if q.state.OwnsScript script then
      RequestQueues.step Owners.visit q (.call (scriptThread script)
        (if sub then .subscribe (.other script) topic .qos0 else .unsubscribe (.other script) topic)
        .async)
    else none
  | .requestScript change mode =>
    if q.state.closing = none then
      RequestQueues.step Owners.visit q (.call restThread (.script change) mode)
    else none
  | .openWebsocket topic =>
    if q.state.closing = none then
      let id := q.state.scripts.nextScript
      RequestQueues.step Owners.visit
        (q.setState { q.state with
          scripts := { q.state.scripts with nextScript := id + 1 }
          openWSFds := q.state.openWSFds ++ [id] })
        (.call restThread (.subscribe (.other id) topic .qos0) .async)
    else none
  | .closeWebsocket id =>
    if id ∈ q.state.openWSFds ∧ q.state.closing = none then
      RequestQueues.step Owners.visit (q.setState { q.state with closing := some id })
        (.call restThread (.unsubscribeFromAll (.other id)) .async)
    else none
  | .eraseWebsocket =>
    match q.state.closing with
    | none => none
    | some id =>
      -- The request of `close` is in a queue by now, not necessarily executed.
      if q.calls restThread = none then
        some (q.setState { q.state with
          openWSFds := q.state.openWSFds.filter (· ≠ id)
          closing := none })
      else none
  | .requestOther thread change mode =>
    if change.names = none then
      match change with
      | .script _ => none
      | change => RequestQueues.step Owners.visit q (.call thread change mode)
    else none
  | .queues (.call _ _ _) => none
  | .queues action => if q.Joins action then RequestQueues.step Owners.visit q action else none

/-! ## What is claimed -/

/-- The requests that wait in the queues. -/
def waiting (q : OwnerQueues τ) : List (Ticket SubscriberRequest) := q.mQueue ++ q.mQueueInternal

/-- Whoever is named by a subscription or by a queued request is owned. -/
structure Owned (q : OwnerQueues τ) : Prop where
  stored : ∀ filter id, SubscriptionTree.Stores q.state.mSubscriptions filter (.other id) →
    q.state.Live id
  queued : ∀ ticket ∈ q.waiting, ∀ id ∈ ticket.change.names, q.state.Live id

/-- The script or websocket that a step destroys. -/
def destroys (q : OwnerQueues τ) : Action → Option Nat
  | .eraseWebsocket => q.state.closing
  | .queues action => (q.executing action).bind q.state.ends
  | _ => none

/-- None is destroyed while a queued request names it, and no websocket while it has
subscriptions. -/
structure Spares (q : OwnerQueues τ) (action : Action) : Prop where
  unnamed : ∀ id ∈ q.destroys action, ∀ ticket ∈ q.waiting, ticket.change.names ≠ some id
  unsubscribed : action = .eraseWebsocket → ∀ id ∈ q.destroys action, ∀ filter,
    ¬ SubscriptionTree.Stores q.state.mSubscriptions filter (.other id)

end OwnerQueues

namespace Owners

variable {τ : Type} {s : Owners τ} {change : SubscriberRequest} {id : Nat}

/-! ## What a request does to the owners -/

/-- No two scripts or websockets have the same number. -/
structure Numbered (s : Owners τ) : Prop where
  scripts : s.scripts.Numbered
  websockets : ∀ id ∈ s.openWSFds, id < s.scripts.nextScript ∧ ¬ s.OwnsScript id

theorem Numbered.lt_of_live (h : s.Numbered) (hlive : s.Live id) : id < s.scripts.nextScript := by
  rcases hlive with hscript | hopen
  · obtain ⟨name, hid⟩ := ownsScript_iff.mp hscript
    exact h.scripts.lt name id hid
  · exact (h.websockets id hopen).1

/-- What ends is a script. -/
theorem ownsScript_of_ends (h : s.ends change = some id) : s.OwnsScript id := by
  cases change with
  | script change =>
      cases change with
      | addScript name code => exact ownsScript_iff.mpr ⟨name, h⟩
      | deleteScript name => exact ownsScript_iff.mpr ⟨name, h⟩
      | activateScript name => cases h
      | deactivateScript name => cases h
  | _ => cases h

variable [SubscriptionTree τ] [ScriptNames]

theorem scripts_visit (s : Owners τ) (change : ScriptRequest) :
    (s.visit (.script change)).scripts = s.scripts.visit change := by
  simp only [visit]
  split
  · rfl
  · rfl

theorem openWSFds_visit (s : Owners τ) (change : SubscriberRequest) :
    (s.visit change).openWSFds = s.openWSFds := by
  cases change with
  | script change =>
      simp only [visit]
      split
      · rfl
      · rfl
  | _ => rfl

theorem closing_visit (s : Owners τ) (change : SubscriberRequest) :
    (s.visit change).closing = s.closing := by
  cases change with
  | script change =>
      simp only [visit]
      split
      · rfl
      · rfl
  | _ => rfl

/-- Whoever does not end stays. -/
theorem ownsScript_visit (hscript : s.OwnsScript id) (hends : s.ends change ≠ some id) :
    (s.visit change).OwnsScript id := by
  cases change with
  | script change =>
      rw [ownsScript_iff, scripts_visit]
      obtain ⟨name, hid⟩ := ownsScript_iff.mp hscript
      exact ⟨name, ScriptStore.idOf_visit_of_not_ends hid hends⟩
  | _ => exact hscript

theorem live_visit (hlive : s.Live id) (hends : s.ends change ≠ some id) :
    (s.visit change).Live id := by
  rcases hlive with hscript | hopen
  · exact .inl (ownsScript_visit hscript hends)
  · exact .inr ((openWSFds_visit s change).symm ▸ hopen)

theorem ownsScript_of_visit (h : (s.visit change).OwnsScript id) :
    s.OwnsScript id ∨ s.scripts.nextScript ≤ id := by
  cases change with
  | script change =>
      rw [ownsScript_iff, scripts_visit] at h
      obtain ⟨name, hid⟩ := h
      rcases ScriptStore.idOf_of_visit hid with hold | ⟨-, hnew, -⟩
      · exact .inl (ownsScript_iff.mpr ⟨name, hold⟩)
      · exact .inr hnew.ge
  | _ => exact .inl h

theorem Numbered.visit (h : s.Numbered) (change : SubscriberRequest) : (s.visit change).Numbered where
  scripts := by
    cases change with
    | script change =>
        rw [scripts_visit]
        exact h.scripts.visit change
    | _ => exact h.scripts
  websockets := by
    intro id hopen
    rw [openWSFds_visit] at hopen
    obtain ⟨hlt, hnot⟩ := h.websockets id hopen
    have hle : s.scripts.nextScript ≤ (s.visit change).scripts.nextScript := by
      cases change with
      | script change =>
          rw [scripts_visit]
          exact ScriptStore.nextScript_le_visit s.scripts change
      | _ => exact le_rfl
    refine ⟨hlt.trans_le hle, fun hscript => ?_⟩
    rcases ownsScript_of_visit hscript with hold | hnew
    · exact hnot hold
    · exact Nat.not_lt_of_le hnew hlt

/-- A script that ends is not owned any more. -/
theorem Numbered.not_live_visit (h : s.Numbered) (hends : s.ends change = some id) :
    ¬ (s.visit change).Live id := by
  rintro (hscript | hopen)
  · cases change with
    | script change =>
        rw [ownsScript_iff, scripts_visit] at hscript
        obtain ⟨name, hid⟩ := hscript
        exact h.scripts.not_idOf_visit hends name hid
    | _ => cases hends
  · rw [openWSFds_visit] at hopen
    exact (h.websockets id hopen).2 (ownsScript_of_ends hends)

/-- Whoever is subscribed after a request was so before, or is named by it. The
subscriptions of a script end with it. -/
theorem stores_of_visit [LawfulSubscriptionTree τ] {filter : ByteString}
    (h : SubscriptionTree.Stores (s.visit change).mSubscriptions filter (.other id)) :
    (SubscriptionTree.Stores s.mSubscriptions filter (.other id) ∨ change.names = some id) ∧
      s.ends change ≠ some id := by
  cases change with
  | subscribe subscriber topic qos =>
      refine ⟨?_, by rintro ⟨⟩⟩
      rcases (LawfulSubscriptionTree.stores_addSubscription _ _ _ _ _).mp h with ⟨-, hsub⟩ | hold
      · exact .inr (congrArg Subscriber.object? hsub).symm
      · exact .inl hold
  | unsubscribe subscriber topic =>
      exact ⟨.inl ((LawfulSubscriptionTree.stores_removeSubscription _ _ _ _ _).mp h).2, by rintro ⟨⟩⟩
  | unsubscribeFromAll subscriber =>
      exact ⟨.inl ((LawfulSubscriptionTree.stores_removeAllSubscriptions _ _ _ _).mp h).2,
        by rintro ⟨⟩⟩
  | script change =>
      simp only [visit] at h
      split at h
      · next hnone =>
          refine ⟨.inl h, ?_⟩
          rw [hnone]
          rintro ⟨⟩
      · next script hends =>
          obtain ⟨hne, hold⟩ :=
            (LawfulSubscriptionTree.stores_removeAllSubscriptions _ _ _ _).mp h
          refine ⟨.inl hold, fun heq => hne ?_⟩
          cases hends.symm.trans heq
          rfl

end Owners

namespace OwnerQueues

section

variable {τ : Type} {q q' : OwnerQueues τ} {thread t : Thread} {id : Nat}

/-! ## The invariant -/

/-- Whatever a thread is about to queue names somebody that is owned: the script whose
thread it is, or a websocket that is open. -/
structure Held (q : OwnerQueues τ) : Prop where
  numbered : q.state.Numbered
  called : ∀ thread call id, q.calls thread = some call → call.change.names = some id →
    thread = scriptThread id ∧ q.state.OwnsScript id ∨ thread = restThread ∧ id ∈ q.state.openWSFds
  closing : ∀ id, q.state.closing = some id → id ∈ q.state.openWSFds

theorem Held.live (h : q.Held) {call : PendingCall SubscriberRequest} (hcall : q.calls thread = some call)
    (hid : call.change.names = some id) : q.state.Live id :=
  (h.called thread call id hcall hid).imp And.right And.right

/-- The calls that go on are the old ones. -/
theorem Held.of_calls (h : q.Held) (hstate : q'.state = q.state)
    (hcalls : ∀ t call, q'.calls t = some call → q.calls t = some call) : q'.Held where
  numbered := hstate ▸ h.numbered
  called := fun t call id hcall hid => hstate ▸ h.called t call id (hcalls t call hcall) hid
  closing := hstate ▸ h.closing

theorem calls_of_endCall {r : Requests SubscriberRequest} {call : PendingCall SubscriberRequest}
    (hcall : (r.endCall thread).calls t = some call) : r.calls t = some call := by
  by_cases ht : t = thread
  · subst ht
    have hnone : (r.endCall t).calls t = none := Function.update_self _ _ _
    cases hnone.symm.trans hcall
  · exact (Function.update_of_ne ht _ _).symm.trans hcall

/-- A call is made. -/
theorem Held.call (h : q.Held) {state : Owners τ} {change : SubscriberRequest}
    {mode : RequestChangeMode} (hnumbered : state.Numbered)
    (hscripts : state.scripts.mScripts = q.state.scripts.mScripts)
    (hopen : ∀ id ∈ q.state.openWSFds, id ∈ state.openWSFds)
    (hclosing : ∀ id, state.closing = some id → id ∈ state.openWSFds)
    (hnames : ∀ id, change.names = some id →
      thread = scriptThread id ∧ state.OwnsScript id ∨ thread = restThread ∧ id ∈ state.openWSFds) :
    Held { q.setState state with toRequests := q.toRequests.call thread change mode } where
  numbered := hnumbered
  called := by
    intro t call id hcall hid
    by_cases ht : t = thread
    · subst ht
      have hself : (q.toRequests.call t change mode).calls t =
          some ⟨q.made.length, change, mode⟩ := Function.update_self _ _ _
      cases hself.symm.trans hcall
      exact hnames id hid
    · have hold : q.calls t = some call := (Function.update_of_ne ht _ _).symm.trans hcall
      have hsame : ∀ id, q.state.OwnsScript id → state.OwnsScript id := by
        unfold Owners.OwnsScript
        rw [hscripts]
        exact fun _ howns => howns
      exact (h.called t call id hold hid).imp (fun hscript => ⟨hscript.1, hsame id hscript.2⟩)
        fun hwebsocket => ⟨hwebsocket.1, hopen id hwebsocket.2⟩
  closing := hclosing

variable [SubscriptionTree τ] [ScriptNames]

/-- A request is executed. The thread of a script that ends has been joined. -/
theorem Held.visit (h : q.Held) (change : SubscriberRequest) (hstate : q'.state = q.state.visit change)
    (hcalls : ∀ t call, q'.calls t = some call → q.calls t = some call)
    (hjoined : ∀ script, q.state.ends change = some script → q.calls (scriptThread script) = none) :
    q'.Held where
  numbered := hstate ▸ h.numbered.visit change
  called := by
    intro t call id hcall hid
    rw [hstate]
    rcases h.called t call id (hcalls t call hcall) hid with ⟨rfl, hscript⟩ | ⟨hrest, hopen⟩
    · refine .inl ⟨rfl, Owners.ownsScript_visit hscript fun hends => ?_⟩
      cases (hjoined id hends).symm.trans (hcalls _ call hcall)
    · exact .inr ⟨hrest, (Owners.openWSFds_visit q.state change).symm ▸ hopen⟩
  closing := by
    intro id hclosing
    rw [hstate, Owners.closing_visit] at hclosing
    rw [hstate, Owners.openWSFds_visit]
    exact h.closing id hclosing

theorem Held.queues {action : RequestQueues.Action SubscriberRequest} (h : q.Held)
    (hjoins : q.Joins action) (hnew : ∀ thread change mode, action ≠ .call thread change mode)
    (hstep : RequestQueues.Steps Owners.visit q action q') : q'.Held := by
  cases hstep with
  | call hidle => exact absurd rfl (hnew _ _ _)
  | enqueue hcall hmode =>
      refine h.of_calls (RequestQueues.state_enqueue _ _ _) fun t call hcall => ?_
      rw [RequestQueues.calls_enqueue] at hcall
      exact calls_of_endCall hcall
  | @executeNow thread call hcall hmode hfree =>
      refine h.visit call.change rfl (fun t call hcall => calls_of_endCall hcall) ?_
      exact hjoins call.change (Option.map_eq_some_iff.mpr ⟨call, hcall, rfl⟩)
  | @execute ticket mQueue hqueue howner hdraining =>
      refine h.visit ticket.change rfl (fun _ _ hcall => hcall) (hjoins ticket.change ?_)
      simp only [RequestQueues.executing, hqueue]
      rfl
  | @executeInternal ticket mQueueInternal hqueue howner =>
      refine h.visit ticket.change rfl (fun _ _ hcall => hcall) (hjoins ticket.change ?_)
      simp only [RequestQueues.executing, hqueue]
      rfl
  | _ => exact h.of_calls rfl fun _ _ hcall => hcall

/-! ## One step -/

omit [ScriptNames] in
/-- A step that destroys nothing keeps everybody owned, if whoever it adds to the queues is. -/
theorem Owned.congr (h : q.Owned) (htree : q'.state.mSubscriptions = q.state.mSubscriptions)
    (hlive : ∀ id, q.state.Live id → q'.state.Live id)
    (hwaiting : ∀ ticket ∈ q'.waiting, ticket ∈ q.waiting ∨
      ∀ id, ticket.change.names = some id → q'.state.Live id) : q'.Owned where
  stored := by
    rw [htree]
    exact fun filter id hstores => hlive id (h.stored filter id hstores)
  queued := by
    intro ticket hticket id hid
    rcases hwaiting ticket hticket with hold | hnew
    · exact hlive id (h.queued ticket hold id hid)
    · exact hnew id hid

omit [ScriptNames] in
theorem spares_of_none {action : Action} (hnone : q.destroys action = none) : q.Spares action where
  unnamed := by
    rw [hnone]
    rintro _ ⟨⟩
  unsubscribed := by
    rw [hnone]
    rintro _ _ ⟨⟩

omit [ScriptNames] in
/-- A call puts nothing in the queues yet. -/
theorem Owned.call_iff (h : q.Owned) {state : Owners τ} {change : SubscriberRequest}
    {mode : RequestChangeMode} {action : Action}
    (htree : state.mSubscriptions = q.state.mSubscriptions)
    (hlive : ∀ id, q.state.Live id → state.Live id) (hnone : q.destroys action = none) :
    Owned { q.setState state with toRequests := q.toRequests.call thread change mode } ↔
      q.Spares action :=
  iff_of_true (h.congr htree hlive fun _ hticket => .inl hticket) (spares_of_none hnone)

variable [LawfulSubscriptionTree τ]

/-- The execution of a request keeps everybody owned exactly if no other request names the
script that it ends. -/
theorem Held.owned_visit_iff (h : q.Held) (howned : q.Owned) {change : SubscriberRequest}
    (hnamed : ∀ id, change.names = some id → q.state.Live id)
    (hstate : q'.state = q.state.visit change)
    (hsub : ∀ ticket ∈ q'.waiting, ticket ∈ q.waiting)
    (hrest : ∀ ticket ∈ q.waiting, ticket ∈ q'.waiting ∨ ticket.change = change) :
    q'.Owned ↔ ∀ id, q.state.ends change = some id →
      ∀ ticket ∈ q.waiting, ticket.change.names ≠ some id := by
  constructor
  · intro howned' id hends ticket hticket hid
    rcases hrest ticket hticket with hwaits | rfl
    · have hlive := howned'.queued ticket hwaits id hid
      rw [hstate] at hlive
      exact h.numbered.not_live_visit hends hlive
    · -- A request that ends a script names no subscriber.
      cases hchange : ticket.change with
      | script change =>
          rw [hchange] at hid
          cases hid
      | _ =>
          rw [hchange] at hends
          cases hends
  · intro hspared
    constructor
    · intro filter id hstores
      rw [hstate] at hstores ⊢
      obtain ⟨hold | hnames, hends⟩ := Owners.stores_of_visit hstores
      · exact Owners.live_visit (howned.stored filter id hold) hends
      · exact Owners.live_visit (hnamed id hnames) hends
    · intro ticket hticket id hid
      have hwaits := hsub ticket hticket
      rw [hstate]
      exact Owners.live_visit (howned.queued ticket hwaits id hid)
        fun hends => hspared id hends ticket hwaits hid

theorem Held.owned_queues_iff {action : RequestQueues.Action SubscriberRequest} (h : q.Held)
    (howned : q.Owned) (hnew : ∀ thread change mode, action ≠ .call thread change mode)
    (hstep : RequestQueues.Steps Owners.visit q action q') :
    q'.Owned ↔ q.Spares (.queues action) := by
  have hspares : ∀ change, q.executing action = some change → (q.Spares (.queues action) ↔
      ∀ id, q.state.ends change = some id → ∀ ticket ∈ q.waiting, ticket.change.names ≠ some id) := by
    intro change hchange
    have hdestroys : q.destroys (.queues action) = q.state.ends change := by
      simp only [destroys, hchange, Option.bind_some]
    constructor
    · intro h id hends
      exact h.unnamed id (hdestroys.trans hends)
    · exact fun h => ⟨fun id hid => h id (hdestroys.symm.trans hid), by rintro ⟨⟩⟩
  have hkept : ∀ {q' : OwnerQueues τ}, q.executing action = none → q'.state = q.state →
      (∀ ticket ∈ q'.waiting, ticket ∈ q.waiting) → (q'.Owned ↔ q.Spares (.queues action)) := by
    intro q' hnone hstate hwaiting
    refine iff_of_true (howned.congr (by rw [hstate]) (by rw [hstate]; exact fun _ hlive => hlive)
      fun ticket hticket => .inl (hwaiting ticket hticket)) (spares_of_none ?_)
    simp only [destroys, hnone, Option.bind_none]
  cases hstep with
  | lock => exact hkept rfl rfl fun _ hticket => hticket
  | unlock => exact hkept rfl rfl fun _ hticket => hticket
  | resetHolder => exact hkept rfl rfl fun _ hticket => hticket
  | call hidle => exact absurd rfl (hnew _ _ _)
  | processInternalQueue => exact hkept rfl rfl fun _ hticket => hticket
  | drained => exact hkept rfl rfl fun _ hticket => hticket
  | @enqueue thread call hcall hmode =>
      -- The request was in the hands of its thread.
      refine iff_of_true (howned.congr ?_ ?_ fun ticket hticket => ?_) (spares_of_none rfl)
      · rw [RequestQueues.state_enqueue]
      · rw [RequestQueues.state_enqueue]
        exact fun _ hlive => hlive
      · rw [RequestQueues.state_enqueue]
        have hwaits : ticket ∈ q.waiting ∨ ticket = call.ticket thread := by
          unfold RequestQueues.enqueue at hticket
          simp only [waiting, List.mem_append] at hticket ⊢
          split at hticket
          · simp only [Requests.pushInternal, List.mem_append, List.mem_singleton] at hticket
            exact or_assoc.mpr hticket
          · simp only [Requests.push, List.mem_append, List.mem_singleton] at hticket
            exact or_right_comm.mp hticket
        refine hwaits.imp_right ?_
        rintro rfl id hid
        exact h.live hcall hid
  | @executeNow thread call hcall hmode hfree =>
      rw [hspares call.change (Option.map_eq_some_iff.mpr ⟨call, hcall, rfl⟩)]
      exact h.owned_visit_iff howned (fun id hid => h.live hcall hid) rfl (fun _ hticket => hticket)
        fun _ hticket => .inl hticket
  | @execute ticket mQueue hqueue howner hdraining =>
      -- Whoever the request names was owned as long as it waited.
      have hwaiting : ∀ t, t ∈ q.waiting ↔ t = ticket ∨ t ∈ mQueue ++ q.mQueueInternal := by
        intro t
        rw [waiting, hqueue, List.cons_append, List.mem_cons]
      rw [hspares ticket.change (by simp only [RequestQueues.executing, hqueue]; rfl)]
      refine h.owned_visit_iff howned (howned.queued ticket ((hwaiting ticket).mpr (.inl rfl))) rfl
        (fun t ht => (hwaiting t).mpr (.inr ht)) fun t ht => ?_
      exact ((hwaiting t).mp ht).symm.imp id fun heq => congrArg Ticket.change heq
  | @executeInternal ticket mQueueInternal hqueue howner =>
      have hwaiting : ∀ t, t ∈ q.waiting ↔ t = ticket ∨ t ∈ q.mQueue ++ mQueueInternal := by
        intro t
        rw [waiting, hqueue, List.mem_append, List.mem_cons, List.mem_append]
        exact or_left_comm
      rw [hspares ticket.change (by simp only [RequestQueues.executing, hqueue]; rfl)]
      refine h.owned_visit_iff howned (howned.queued ticket ((hwaiting ticket).mpr (.inl rfl))) rfl
        (fun t ht => (hwaiting t).mpr (.inr ht)) fun t ht => ?_
      exact ((hwaiting t).mp ht).symm.imp id fun heq => congrArg Ticket.change heq

omit [ScriptNames] [LawfulSubscriptionTree τ] in
/-- A websocket is erased. -/
theorem Held.owned_erase_iff (h : q.Held) (howned : q.Owned) (hclosing : q.state.closing = some id) :
    Owned (q.setState { q.state with
      openWSFds := q.state.openWSFds.filter (· ≠ id)
      closing := none }) ↔ q.Spares .eraseWebsocket := by
  have hlive : ∀ other, Owners.Live { q.state with
      openWSFds := q.state.openWSFds.filter (· ≠ id)
      closing := none } other ↔ q.state.Live other ∧ other ≠ id := by
    intro other
    constructor
    · rintro (hscript | hopen)
      · refine ⟨.inl hscript, ?_⟩
        rintro rfl
        exact (h.numbered.websockets other (h.closing other hclosing)).2 hscript
      · obtain ⟨hmem, hne⟩ := List.mem_filter.mp hopen
        exact ⟨.inr hmem, of_decide_eq_true hne⟩
    · rintro ⟨hscript | hopen, hne⟩
      · exact .inl hscript
      · exact .inr (List.mem_filter.mpr ⟨hopen, decide_eq_true hne⟩)
  constructor
  · intro howned'
    constructor
    · rintro other hdestroyed ticket hticket hid
      cases hclosing.symm.trans hdestroyed
      exact ((hlive id).mp (howned'.queued ticket hticket id hid)).2 rfl
    · rintro - other hdestroyed filter hstores
      cases hclosing.symm.trans hdestroyed
      exact ((hlive id).mp (howned'.stored filter id hstores)).2 rfl
  · intro hspares
    constructor
    · intro filter other hstores
      refine (hlive other).mpr ⟨howned.stored filter other hstores, ?_⟩
      rintro rfl
      exact hspares.unsubscribed rfl other hclosing filter hstores
    · intro ticket hticket other hid
      refine (hlive other).mpr ⟨howned.queued ticket hticket other hid, ?_⟩
      rintro rfl
      exact hspares.unnamed other hclosing ticket hticket hid

omit [SubscriptionTree τ] [ScriptNames] [LawfulSubscriptionTree τ] in
theorem Held.erase (h : q.Held) (hidle : q.calls restThread = none) :
    Held (q.setState { q.state with
      openWSFds := q.state.openWSFds.filter (· ≠ id)
      closing := none }) where
  numbered := ⟨h.numbered.scripts, fun other hopen => h.numbered.websockets other (List.mem_filter.mp hopen).1⟩
  called := by
    intro t call other hcall hid
    rcases h.called t call other hcall hid with hscript | ⟨rfl, -⟩
    · exact .inl hscript
    · cases hidle.symm.trans hcall
  closing := by rintro _ ⟨⟩

omit [SubscriptionTree τ] [ScriptNames] [LawfulSubscriptionTree τ] in
/-- The subscriber of a websocket is made. -/
theorem Held.numbered_open (h : q.Held) :
    Owners.Numbered { q.state with
      scripts := { q.state.scripts with nextScript := q.state.scripts.nextScript + 1 }
      openWSFds := q.state.openWSFds ++ [q.state.scripts.nextScript] } where
  scripts :=
    ⟨fun name other hid => (h.numbered.scripts.lt name other hid).trans (Nat.lt_succ_self _),
      h.numbered.scripts.injective⟩
  websockets := by
    intro other hopen
    rcases List.mem_append.mp hopen with hold | hnew
    · obtain ⟨hlt, hnot⟩ := h.numbered.websockets other hold
      exact ⟨hlt.trans (Nat.lt_succ_self _), hnot⟩
    · cases List.mem_singleton.mp hnew
      refine ⟨Nat.lt_succ_self _, fun hscript => ?_⟩
      exact absurd (h.numbered.lt_of_live (.inl hscript)) (Nat.lt_irrefl _)

omit [LawfulSubscriptionTree τ] in
theorem queues_of_step {action : RequestQueues.Action SubscriberRequest}
    (hstep : q.step (.queues action) = some q') :
    (∀ thread change mode, action ≠ .call thread change mode) ∧ q.Joins action ∧
      RequestQueues.Steps Owners.visit q action q' := by
  cases action with
  | call thread change mode => cases hstep
  | _ =>
      simp only [OwnerQueues.step, Option.ite_none_right_eq_some] at hstep
      exact ⟨(by rintro _ _ _ ⟨⟩), hstep.1, RequestQueues.steps_of_step hstep.2⟩

/-- In one step: the invariant stays, and everybody stays owned exactly if the step spares
whoever is named. -/
theorem Held.step {action : Action} (h : q.Held) (hstep : q.step action = some q') :
    q'.Held ∧ (q.Owned → (q'.Owned ↔ q.Spares action)) := by
  have hcalled : ∀ (state : Owners τ) {thread change mode q'},
      RequestQueues.step Owners.visit (q.setState state) (.call thread change mode) = some q' →
        q' = { q.setState state with toRequests := q.toRequests.call thread change mode } := by
    intro state thread change mode q' hcall
    cases RequestQueues.steps_of_step hcall with
    | call hidle => rfl
  cases action with
  | jsSubOrUnsub script sub topic =>
      obtain ⟨howns, hcall⟩ := Option.ite_none_right_eq_some.mp hstep
      cases hcalled q.state hcall
      refine ⟨h.call h.numbered rfl (fun _ hopen => hopen) h.closing fun id hid => .inl ?_,
        fun howned => howned.call_iff rfl (fun _ hlive => hlive) rfl⟩
      -- A script speaks for itself only.
      have hself : id = script := by
        cases sub with
        | true => exact (Option.some.inj hid).symm
        | false => exact (Option.some.inj hid).symm
      subst hself
      exact ⟨rfl, howns⟩
  | requestScript change mode =>
      obtain ⟨-, hcall⟩ := Option.ite_none_right_eq_some.mp hstep
      cases hcalled q.state hcall
      exact ⟨h.call h.numbered rfl (fun _ hopen => hopen) h.closing (by rintro _ ⟨⟩),
        fun howned => howned.call_iff rfl (fun _ hlive => hlive) rfl⟩
  | openWebsocket topic =>
      -- The new subscriber is in `openWSFds` before its first request is made.
      obtain ⟨hclosing, hcall⟩ := Option.ite_none_right_eq_some.mp hstep
      cases hcalled _ hcall
      have hopen : ∀ id ∈ q.state.openWSFds,
          id ∈ q.state.openWSFds ++ [q.state.scripts.nextScript] :=
        fun id hmem => List.mem_append_left _ hmem
      refine ⟨h.call h.numbered_open rfl hopen (fun id hid => hopen id (h.closing id hid))
          fun id hid => .inr ⟨rfl, ?_⟩,
        fun howned => howned.call_iff rfl (fun id hlive => hlive.imp_right (hopen id)) rfl⟩
      cases hid
      exact List.mem_append_right _ (List.mem_singleton_self _)
  | closeWebsocket id =>
      obtain ⟨⟨hopen, -⟩, hcall⟩ := Option.ite_none_right_eq_some.mp hstep
      cases hcalled _ hcall
      have hself : ∀ other, some id = some other → other ∈ q.state.openWSFds := by
        rintro _ ⟨⟩
        exact hopen
      exact ⟨h.call ⟨h.numbered.scripts, h.numbered.websockets⟩ rfl (fun _ hmem => hmem) hself
          fun other hid => .inr ⟨rfl, hself other hid⟩,
        fun howned => howned.call_iff rfl (fun _ hlive => hlive) rfl⟩
  | eraseWebsocket =>
      simp only [OwnerQueues.step] at hstep
      split at hstep
      · cases hstep
      · next id hclosing =>
          obtain ⟨hidle, hstep⟩ := Option.ite_none_right_eq_some.mp hstep
          cases hstep
          exact ⟨h.erase hidle, fun howned => h.owned_erase_iff howned hclosing⟩
  | requestOther thread change mode =>
      obtain ⟨hnames, hstep⟩ := Option.ite_none_right_eq_some.mp hstep
      have hcall : RequestQueues.step Owners.visit (q.setState q.state) (.call thread change mode) =
          some q' := by
        cases change with
        | script change => cases hstep
        | _ => exact hstep
      cases hcalled _ hcall
      exact ⟨h.call h.numbered rfl (fun _ hopen => hopen) h.closing
          (fun id hid => by cases hnames.symm.trans hid),
        fun howned => howned.call_iff rfl (fun _ hlive => hlive) rfl⟩
  | queues action =>
      obtain ⟨hnew, hjoins, hsteps⟩ := queues_of_step hstep
      exact ⟨h.queues hjoins hnew hsteps, fun howned => h.owned_queues_iff howned hnew hsteps⟩

/-! ## Runs -/

/-- After the scripts of a table have been loaded. -/
def initial (s : ScriptStore) (rows : List (Sigma fun _ : ByteString => ScriptRow)) : OwnerQueues τ :=
  RequestQueues.initial { mSubscriptions := SubscriptionTree.empty, scripts := s.restart rows }

/-- Over every run: every script and websocket that is named by a subscription or by a
queued request is owned, exactly if none is destroyed while it is named. -/
theorem owned_iff_spares {s : ScriptStore} {rows : List (Sigma fun _ : ByteString => ScriptRow)}
    {run : List (Action × OwnerQueues τ)}
    (hrun : Runs.IsRun (Runs.StepOf step) (initial s rows) run) :
    Runs.AllStates Owned run ↔ Runs.AllSteps Spares (initial s rows) run := by
  refine hrun.allStates_iff_allSteps (I := Held) (fun _ _ _ h _ _ hstep => (h.step hstep).1)
    (fun _ _ _ h howned hstep => (h.step hstep).2 howned) ?_ ?_
  · exact ⟨⟨ScriptStore.numbered_restart s rows, by rintro _ ⟨⟩⟩, by rintro _ _ _ ⟨⟩, by rintro _ ⟨⟩⟩
  · refine ⟨fun filter id hstores => ?_, by rintro _ ⟨⟩⟩
    exact absurd hstores (LawfulSubscriptionTree.stores_empty filter (.other id))

end

/-! ## A script that is deleted while it subscribes -/

section

variable [ScriptNames]

instance (tree : SubscriptionList) (id : Nat) :
    Decidable (∀ filter, ¬ SubscriptionTree.Stores tree filter (.other id)) :=
  decidable_of_iff (∀ e ∈ tree.entries, e.2.subscriber ≠ .other id) <| by
    constructor
    · intro h filter hstores
      obtain ⟨e, hmem, heq⟩ := List.mem_map.mp hstores
      exact h e hmem (Prod.mk.inj heq).2
    · intro h e hmem heq
      exact h e.1 (List.mem_map.mpr ⟨e, hmem, by rw [← heq]; rfl⟩)

instance (q : OwnerQueues SubscriptionList) (action : Action) :
    Decidable (action = .eraseWebsocket → ∀ id ∈ q.destroys action, ∀ filter,
      ¬ SubscriptionTree.Stores q.state.mSubscriptions filter (.other id)) :=
  match action with
  | .eraseWebsocket =>
    decidable_of_iff (∀ id ∈ q.destroys .eraseWebsocket, ∀ filter,
      ¬ SubscriptionTree.Stores q.state.mSubscriptions filter (.other id)) ⟨fun h _ => h, fun h => h rfl⟩
  | .jsSubOrUnsub _ _ _ | .requestScript _ _ | .openWebsocket _ | .closeWebsocket _
  | .requestOther _ _ _ | .queues _ => isTrue (by rintro ⟨⟩)

instance (q : OwnerQueues SubscriptionList) (action : Action) : Decidable (q.Spares action) :=
  decidable_of_iff
    ((∀ id ∈ q.destroys action, ∀ ticket ∈ q.waiting, ticket.change.names ≠ some id) ∧
      (action = .eraseWebsocket → ∀ id ∈ q.destroys action, ∀ filter,
        ¬ SubscriptionTree.Stores q.state.mSubscriptions filter (.other id)))
    ⟨fun h => ⟨h.1, h.2⟩, fun h => ⟨h.unnamed, h.unsubscribed⟩⟩

end

/-- A script is uploaded, and the worker thread makes it. -/
def upload : List Action :=
  [.queues (.lock restThread), .requestScript (.addScript nameOfScript []) .async,
    .queues (.enqueue restThread), .queues (.unlock restThread), .queues (.lock .worker),
    .queues .processInternalQueue, .queues .executeInternal, .queues .drained,
    .queues (.unlock .worker), .queues .resetHolder]

/-- The REST thread deletes it. -/
def delete : List Action :=
  [.requestScript (.deleteScript nameOfScript) .async, .queues (.enqueue restThread)]

/-- It calls `nv.subscribe`. -/
def subscribe : List Action := [.jsSubOrUnsub 0 true [0x74], .queues (.enqueue (scriptThread 0))]

/-- The worker thread executes the requests of a queue. -/
def executeQueue (requests : Nat) : List Action :=
  [.queues (.lock .worker)] ++
    (List.replicate requests [.queues .execute, .queues .drained]).flatten ++
    [.queues (.unlock .worker), .queues .resetHolder]

/-- A websocket is opened and closed, and the worker thread is fast enough. -/
def openAndClose : List Action :=
  [.openWebsocket [0x74], .queues (.enqueue restThread)] ++ executeQueue 1 ++
    [.closeWebsocket 1, .queues (.enqueue restThread)] ++ executeQueue 1 ++ [.eraseWebsocket]

theorem owned_subscribeAndDelete :
    (Runs.runOf (@step SubscriptionList _ .standard) (@initial _ _ .standard {} [])
        (upload ++ subscribe ++ delete ++ executeQueue 2 ++ openAndClose)).length = 36 ∧
      Runs.AllStates Owned (Runs.runOf (@step SubscriptionList _ .standard)
        (@initial _ _ .standard {} [])
        (upload ++ subscribe ++ delete ++ executeQueue 2 ++ openAndClose)) :=
  ⟨by decide +kernel, (@owned_iff_spares SubscriptionList _ .standard _ {} [] _
    (Runs.isRun_runOf (@step SubscriptionList _ .standard) _ _)).mpr (by decide +kernel)⟩

/-- The deletion is queued before the subscription, and comes first. -/
theorem not_owned_deleteAndSubscribe :
    ∃ run, Runs.IsRun (Runs.StepOf (@step SubscriptionList _ .standard))
        (@initial _ _ .standard {} []) run ∧ ¬ Runs.AllStates Owned run := by
  refine ⟨_, Runs.isRun_runOf (@step SubscriptionList _ .standard) _
    (upload ++ delete ++ subscribe ++ executeQueue 2), fun h => ?_⟩
  have hqueued : Runs.AllStates (fun q : OwnerQueues SubscriptionList =>
      ∀ ticket ∈ q.waiting, ∀ id ∈ ticket.change.names, q.state.Live id) _ :=
    fun x hx => (h x hx).queued
  revert hqueued
  decide +kernel

end OwnerQueues

end NioevMqtt
