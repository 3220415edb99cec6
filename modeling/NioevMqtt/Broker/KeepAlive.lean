-- SUMMARY: Keep alive: over every run a pass of `cleanup` logs out exactly the clients that nothing was received from for twice their interval, as long as none it comes to has announced an interval of zero.
import NioevMqtt.Broker.KeptData
import NioevMqtt.Library.Timestamps

/-!
# Keep alive

Every two seconds a pass of `cleanup` goes through the connections and logs out those that
have timed out. The receiver threads write their timestamps meanwhile, without its lock.
-/

namespace NioevMqtt

open ApplicationState (Action)
open Timestamps

/-! ## Arithmetic -/

/-- `getLastDataRecvTimestamp() + (int64_t)getKeepAliveIntervalSeconds() * 2'000'000'000`. -/
def timeoutAt (timestamp : Int64) (keepAlive : UInt16) : Int64 :=
  timestamp + Int64.ofNat keepAlive.toNat * 2000000000

/-- Below `2^62` it does not overflow. -/
theorem toInt_timeoutAt {timestamp : Int64} (h : timestamp.toInt < 2 ^ 62) (keepAlive : UInt16) :
    (timeoutAt timestamp keepAlive).toInt = timestamp.toInt + keepAlive.toNat * 2000000000 := by
  have hkeepAlive : keepAlive.toNat < 2 ^ 16 := keepAlive.toNat_lt
  have hlow : -2 ^ 63 ≤ timestamp.toInt := timestamp.le_toInt
  have hinterval : (Int64.ofNat keepAlive.toNat * 2000000000).toInt =
      keepAlive.toNat * 2000000000 := by
    have hsecond : (2000000000 : Int64).toInt = 2000000000 := rfl
    rw [Int64.toInt_mul, Int64.toInt_ofNat_of_lt (by omega), hsecond]
    exact Int.bmod_eq_of_le (by omega) (by omega)
  rw [timeoutAt, Int64.toInt_add, hinterval]
  exact Int.bmod_eq_of_le (by omega) (by omega)

/-- What the check of a connection computes with a clock below `2^62`. -/
theorem timeoutAt_exact (conn : MQTTClientConnection) {now : Nat}
    (htimestamp : conn.mLastDataReceivedTimestamp < 2 ^ 62) (hnow : now < 2 ^ 62) :
    (timeoutAt (Int64.ofNat conn.mLastDataReceivedTimestamp) conn.mKeepAliveIntervalSeconds).toInt =
        conn.mLastDataReceivedTimestamp + conn.mKeepAliveIntervalSeconds.toNat * 2000000000 ∧
      (timeoutAt (Int64.ofNat conn.mLastDataReceivedTimestamp) conn.mKeepAliveIntervalSeconds ≤
          Int64.ofNat now ↔
        conn.mLastDataReceivedTimestamp + conn.mKeepAliveIntervalSeconds.toNat * 2000000000 ≤ now) := by
  have hnow' : (Int64.ofNat now).toInt = now := Int64.toInt_ofNat_of_lt (by omega)
  have htimestamp' := Int64.toInt_ofNat_of_lt
    (show conn.mLastDataReceivedTimestamp < 2 ^ 63 by omega)
  have hsum := @toInt_timeoutAt (Int64.ofNat conn.mLastDataReceivedTimestamp) (by omega)
    conn.mKeepAliveIntervalSeconds
  rw [htimestamp'] at hsum
  refine ⟨hsum, ?_⟩
  rw [Int64.le_iff_toInt_le, hsum, hnow']
  omega

/-! ## Passes -/

/-- A client as a pass of `cleanup` has come to it. -/
structure Check where
  client : ConnectionId
  now : Nat
  mLoggedOut : Bool
  mKeepAliveIntervalSeconds : UInt16
  /-- When the connection was accepted, and then each time data was received from it. -/
  received : List Nat
  /-- The clients that are then logged out. -/
  loggedOut : List ConnectionId

namespace Check

/-- Keep alive is on, and nothing was received for twice the interval. -/
def Silent (check : Check) : Prop :=
  check.mKeepAliveIntervalSeconds ≠ 0 ∧ ∀ time ∈ check.received,
    time + 2 * check.mKeepAliveIntervalSeconds.toNat * 1000000000 ≤ check.now

/-- The client is logged out if it was not and is silent, and no other is. -/
structure Right (check : Check) : Prop where
  mem_iff : check.client ∈ check.loggedOut ↔ check.mLoggedOut = false ∧ check.Silent
  eq_client : ∀ client ∈ check.loggedOut, client = check.client

/-- Something was received in every interval since the connection was accepted. -/
def InTime (check : Check) : Prop :=
  ∀ accepted ∈ check.received.head?, ∀ start, accepted ≤ start →
    start + check.mKeepAliveIntervalSeconds.toNat * 1000000000 ≤ check.now →
      ∃ time ∈ check.received, start ≤ time ∧
        time ≤ start + check.mKeepAliveIntervalSeconds.toNat * 1000000000

instance (check : Check) : Decidable check.Silent := inferInstanceAs (Decidable (_ ∧ _))

instance (check : Check) : Decidable check.Right :=
  decidable_of_iff ((_ ↔ _) ∧ ∀ _ ∈ check.loggedOut, _) ⟨fun h => ⟨h.1, h.2⟩, fun h => ⟨h.1, h.2⟩⟩

/-- Who sends in time is not silent. -/
theorem not_silent_of_inTime {check : Check} (h : check.InTime)
    (haccepted : ∃ accepted ∈ check.received.head?, accepted ≤ check.now) : ¬ check.Silent := by
  rintro ⟨hne, hall⟩
  obtain ⟨accepted, hhead, hle⟩ := haccepted
  have hpos : 0 < check.mKeepAliveIntervalSeconds.toNat :=
    Nat.pos_of_ne_zero fun hzero => hne (UInt16.toNat_inj.mp hzero)
  have hfirst := hall accepted (List.mem_of_mem_head? hhead)
  -- The last whole interval began after the connection was accepted.
  obtain ⟨time, htime, hstart, -⟩ := h accepted hhead
    (check.now - check.mKeepAliveIntervalSeconds.toNat * 1000000000) (by omega) (by omega)
  have hlast := hall time htime
  omega

/-- Who is spared by a check that is right. -/
theorem Right.spares {check : Check} (h : check.Right)
    (haccepted : ∃ accepted ∈ check.received.head?, accepted ≤ check.now)
    (hcheck : check.mKeepAliveIntervalSeconds = 0 ∨ check.InTime) : check.loggedOut = [] := by
  rw [List.eq_nil_iff_forall_not_mem]
  intro client hclient
  have hsilent := (h.mem_iff.mp (h.eq_client client hclient ▸ hclient)).2
  rcases hcheck with hzero | htime
  · exact hsilent.1 hzero
  · exact not_silent_of_inTime htime haccepted hsilent

end Check

/-- The broker with its clock, and the pass of `cleanup` that goes on. -/
structure Passes (τ : Type) where
  app : ApplicationState τ
  clock : Nat := 0
  received : ConnectionId → List Nat := fun _ => []
  /-- The connections the loop has yet to come to. -/
  it : Option (List ConnectionId) := none
  /-- Those that the last pass has come to. -/
  checks : List Check := []

namespace Passes

inductive Event where
  | action (action : Action)
  /-- The loop begins, with the lock. -/
  | cleanup
  | check (now : Nat)
  | cleanupEnd

/-- The time of an action, where it reads the clock. -/
def now? : Action → Option Nat
  | .newConnection _ now | .receiveData _ now => some now
  | _ => none

/-- An action that changes the list of connections waits for the lock. A timeout is a `check`. -/
def Allowed (it : Option (List ConnectionId)) : Action → Prop
  | .newConnection _ _ | .cleanup => it = none
  | .timeout _ _ => False
  -- Some of these wait for the lock as well. It makes no difference to the loop.
  | _ => True

instance (it : Option (List ConnectionId)) (action : Action) : Decidable (Allowed it action) :=
  match action with
  | .newConnection _ _ | .cleanup => inferInstanceAs (Decidable (it = none))
  | .timeout _ _ => inferInstanceAs (Decidable False)
  | .receiveData _ _ | .connect _ _ | .rejectVersion _ | .packet _ _ | .receiveError _ | .start _ _
  | .proceed _ _ | .execute _ | .executeInternal _ | .sendError _ | .logoutSendError _ =>
    inferInstanceAs (Decidable True)

section

variable {τ : Type}

/-- When data is received, and when a connection is accepted. -/
def receivedAfter (s : Passes τ) : Action → ConnectionId → List Nat
  | .newConnection _ now => Function.update s.received s.app.nextConnection [now]
  | .receiveData client now => Function.update s.received client (s.received client ++ [now])
  | _ => s.received

/-- A client as the loop finds it. -/
def look (s : Passes τ) (client : ConnectionId) (now : Nat) (app : ApplicationState τ) : Check where
  client := client
  now := now
  mLoggedOut := (s.app.connections client).mLoggedOut
  mKeepAliveIntervalSeconds := (s.app.connections client).mKeepAliveIntervalSeconds
  received := s.received client
  loggedOut := s.app.mClients.filter fun c =>
    (s.app.connections c).mLoggedOut = false ∧ (app.connections c).mLoggedOut = true

variable [Libnioev] [SubscriptionTree τ]

def step (s : Passes τ) : Event → Option (Passes τ)
  | .action action =>
    if Allowed s.it action ∧ ∀ now ∈ now? action, s.clock ≤ now then
      (s.app.stepOk action).map fun app =>
        { s with app, clock := (now? action).getD s.clock, received := s.receivedAfter action }
    else none
  | .cleanup => if s.it = none then some { s with it := some s.app.mClients, checks := [] } else none
  | .check now =>
    match s.it with
    | some (client :: rest) =>
      if s.clock ≤ now then
        (if s.app.TimedOut client now then s.app.stepOk (.timeout client now) else some s.app).map
          fun app => { s with
            app
            clock := now
            it := some rest
            checks := s.checks ++ [s.look client now app] }
      else none
    | _ => none
  | .cleanupEnd => if s.it = some [] then some { s with it := none } else none

def initial (retained : RetainedMessages) : Passes τ where
  app := .initial retained

/-- The last pass has logged out the clients that were silent, and has come to all of them. -/
structure KeepsAlive (s : Passes τ) : Prop where
  right : ∀ check ∈ s.checks, check.Right
  spares : ∀ check ∈ s.checks, check.mKeepAliveIntervalSeconds = 0 ∨ check.InTime →
    check.loggedOut = []
  complete : ∀ rest, s.it = some rest → s.checks.map (·.client) ++ rest = s.app.mClients

/-- The client a pass comes to has announced an interval, if it is not logged out. -/
def HasInterval (s : Passes τ) : Event → Prop
  | .check _ => ∀ client ∈ s.it.bind List.head?, (s.app.connections client).mLoggedOut = false →
    (s.app.connections client).mKeepAliveIntervalSeconds ≠ 0
  | _ => True

instance (s : Passes τ) (event : Event) : Decidable (s.HasInterval event) :=
  match event with
  | .check _ => inferInstanceAs (Decidable (∀ client ∈ s.it.bind List.head?, _))
  | .action _ | .cleanup | .cleanupEnd => inferInstanceAs (Decidable True)

end

/-! ## What holds between steps -/

section

variable {τ : Type} [Libnioev] [SubscriptionTree τ] {s t : Passes τ} {event : Event}

/-- The timestamps of the connections are the last times data was received. -/
structure Tracks (s : Passes τ) : Prop where
  tabled : s.app.Tabled
  stamped : ∀ client ∈ s.app.mClients,
    Stamped (s.received client) (s.app.connections client).mLastDataReceivedTimestamp s.clock
  complete : ∀ rest, s.it = some rest → s.checks.map (·.client) ++ rest = s.app.mClients

omit [Libnioev] [SubscriptionTree τ] in
theorem le_clockAfter {action : Action} (htime : ∀ now ∈ now? action, s.clock ≤ now) :
    s.clock ≤ (now? action).getD s.clock := by
  cases hnow : now? action with
  | none => exact le_rfl
  | some now => exact htime now hnow

/-- The timestamps of the connections there are, after a step of the broker. -/
theorem Tracks.stamped_action {action : Action} {app : ApplicationState τ} (h : s.Tracks)
    (htime : ∀ now ∈ now? action, s.clock ≤ now) (hstep : s.app.stepOk action = some app)
    (client : ConnectionId) (hclient : client ∈ s.app.mClients) :
    Stamped (s.receivedAfter action client) (app.connections client).mLastDataReceivedTimestamp
      ((now? action).getD s.clock) := by
  have hold := h.stamped client hclient
  have hactivity := congrFun (ApplicationState.activity_stepOk hstep) client
  have hsame : s.receivedAfter action client = s.received client →
      (s.app.activityAfter action client).mLastDataReceivedTimestamp =
        (s.app.connections client).mLastDataReceivedTimestamp →
      Stamped (s.receivedAfter action client) (app.connections client).mLastDataReceivedTimestamp
        ((now? action).getD s.clock) := by
    intro hreceived hafter
    have htimestamp : (app.connections client).mLastDataReceivedTimestamp =
        (s.app.connections client).mLastDataReceivedTimestamp :=
      (congrArg Activity.mLastDataReceivedTimestamp hactivity).trans hafter
    rw [hreceived, htimestamp]
    exact hold.mono (le_clockAfter htime)
  cases action with
  | newConnection remote now =>
      have hne : client ≠ s.app.nextConnection :=
        Nat.ne_of_lt (h.tabled.linked.view.clients client hclient)
      refine hsame (Function.update_of_ne hne _ _) ?_
      rw [ApplicationState.activityAfter, Function.update_of_ne hne]
      rfl
  | receiveData c now =>
      rcases eq_or_ne client c with rfl | hne
      · have htimestamp : (app.connections client).mLastDataReceivedTimestamp = now := by
          refine (congrArg Activity.mLastDataReceivedTimestamp hactivity).trans ?_
          rw [ApplicationState.activityAfter, Function.update_self]
        rw [receivedAfter, Function.update_self, htimestamp]
        exact hold.append (htime now rfl)
      · refine hsame (Function.update_of_ne hne _ _) ?_
        rw [ApplicationState.activityAfter, Function.update_of_ne hne]
        rfl
  | connect c packet =>
      refine hsame rfl ?_
      rw [ApplicationState.activityAfter, Function.update_apply]
      split
      · next heq =>
          rw [heq]
          rfl
      · rfl
  | _ => exact hsame rfl rfl

theorem Tracks.action {action : Action} {app : ApplicationState τ} (h : s.Tracks)
    (hallowed : Allowed s.it action) (htime : ∀ now ∈ now? action, s.clock ≤ now)
    (hstep : s.app.stepOk action = some app) :
    Tracks { s with
      app
      clock := (now? action).getD s.clock
      received := s.receivedAfter action } := by
  have hold := h.stamped_action htime hstep
  have hkept : (∀ remote now, action ≠ .newConnection remote now) → action ≠ .cleanup →
      Tracks { s with
        app
        clock := (now? action).getD s.clock
        received := s.receivedAfter action } := by
    intro hnew hcleanup
    have hclients := ApplicationState.mClients_stepOk h.tabled hstep hnew hcleanup
    refine ⟨h.tabled.step (ApplicationState.step_of_stepOk hstep), fun client hclient => ?_, ?_⟩
    · exact hold client (hclients ▸ hclient)
    · exact fun rest hit => (h.complete rest hit).trans hclients.symm
  cases action with
  | newConnection remote now =>
      have happ : s.app.handleNewClientConnection remote now = app := Option.some.inj hstep
      refine ⟨h.tabled.step (ApplicationState.step_of_stepOk hstep), fun client hclient => ?_, ?_⟩
      · rw [← happ] at hclient
        rcases List.mem_append.mp hclient with hbefore | haccepted
        · exact hold client hbefore
        · have hreceived : s.receivedAfter (.newConnection remote now) client = [now] := by
            rw [List.mem_singleton.mp haccepted]
            exact Function.update_self _ _ _
          have htimestamp : (app.connections client).mLastDataReceivedTimestamp = now := by
            rw [List.mem_singleton.mp haccepted, ← happ]
            simp only [ApplicationState.handleNewClientConnection, Function.update_self]
          simp only [hreceived, htimestamp]
          exact stamped_singleton now
      · intro rest hit
        exact absurd (hallowed.symm.trans hit) (Option.some_ne_none rest).symm
  | cleanup =>
      obtain ⟨-, hresult⟩ :=
        Option.ite_none_right_eq_some.mp (ApplicationState.step_of_stepOk hstep)
      cases hresult
      refine ⟨h.tabled.step (ApplicationState.step_of_stepOk hstep), fun client hclient => ?_, ?_⟩
      · exact hold client (List.mem_of_mem_filter hclient)
      · intro rest hit
        exact absurd (hallowed.symm.trans hit) (Option.some_ne_none rest).symm
  | timeout client now => exact hallowed.elim
  | _ => exact hkept (fun _ _ heq => by cases heq) (fun heq => by cases heq)

/-! ## Checks -/

/-- What the loop does with the client it has come to. -/
structure Checked (s : ApplicationState τ) (client : ConnectionId) (now : Nat)
    (app : ApplicationState τ) : Prop where
  tabled : app.Tabled
  mClients_eq : app.mClients = s.mClients
  activity_eq : app.kept.activity = s.kept.activity
  out_iff : ∀ c, (s.connections c).mLoggedOut = false ∧ (app.connections c).mLoggedOut = true ↔
    c = client ∧ s.TimedOut client now

theorem checked_of_check {app₀ app : ApplicationState τ} {client : ConnectionId} {now : Nat}
    (h : app₀.Tabled) (hcheck : (if app₀.TimedOut client now then app₀.stepOk (.timeout client now)
      else some app₀) = some app) : Checked app₀ client now app := by
  split at hcheck
  · next htimedOut =>
      obtain ⟨hout, hothers⟩ := ApplicationState.mLoggedOut_timeout h hcheck
      refine ⟨h.step (ApplicationState.step_of_stepOk hcheck), ?_,
        ApplicationState.activity_stepOk hcheck, fun c => ?_⟩
      · exact ApplicationState.mClients_stepOk h hcheck (fun _ _ heq => by cases heq)
          (fun heq => by cases heq)
      · constructor
        · rintro ⟨hbefore, hafter⟩
          refine ⟨?_, htimedOut⟩
          by_contra hne
          rw [hothers c hne, hbefore] at hafter
          cases hafter
        · rintro ⟨rfl, -⟩
          exact ⟨htimedOut.1, hout⟩
  · next hnot =>
      cases hcheck
      refine ⟨h, rfl, rfl, fun c => ?_⟩
      constructor
      · rintro ⟨hbefore, hafter⟩
        rw [hbefore] at hafter
        cases hafter
      · exact fun hout => absurd hout.2 hnot

variable {client : ConnectionId} {rest : List ConnectionId} {now : Nat} {app : ApplicationState τ}

omit [Libnioev] [SubscriptionTree τ] in
theorem Tracks.mem_mClients (h : s.Tracks) (hit : s.it = some (client :: rest)) :
    client ∈ s.app.mClients := by
  rw [← h.complete _ hit]
  exact List.mem_append_right _ List.mem_cons_self

omit [Libnioev] [SubscriptionTree τ] in
theorem Tracks.check (h : s.Tracks) (hit : s.it = some (client :: rest)) (hle : s.clock ≤ now)
    (hchecked : Checked s.app client now app) :
    Tracks { s with
      app
      clock := now
      it := some rest
      checks := s.checks ++ [s.look client now app] } := by
  refine ⟨hchecked.tabled, fun c hc => ?_, ?_⟩
  · have hsame := congrArg Activity.mLastDataReceivedTimestamp (congrFun hchecked.activity_eq c)
    have htimestamp : (app.connections c).mLastDataReceivedTimestamp =
        (s.app.connections c).mLastDataReceivedTimestamp := hsame
    simp only [htimestamp]
    exact (h.stamped c (hchecked.mClients_eq ▸ hc)).mono hle
  · rintro _ ⟨⟩
    rw [hchecked.mClients_eq, ← h.complete _ hit, List.map_append, List.append_assoc]
    rfl

omit [Libnioev] [SubscriptionTree τ] in
/-- A check is right exactly if the client it finds has an interval, or is logged out. -/
theorem right_look_iff (h : s.Tracks) (hit : s.it = some (client :: rest)) (hle : s.clock ≤ now)
    (hchecked : Checked s.app client now app) :
    (s.look client now app).Right ↔ ((s.app.connections client).mLoggedOut = false →
      (s.app.connections client).mKeepAliveIntervalSeconds ≠ 0) := by
  have hstamped := h.stamped client (h.mem_mClients hit)
  have hmem : ∀ c, c ∈ (s.look client now app).loggedOut ↔
      c ∈ s.app.mClients ∧ c = client ∧ s.app.TimedOut client now := by
    intro c
    rw [look, List.mem_filter, decide_eq_true_iff, hchecked.out_iff]
  have hsilent : (s.look client now app).Silent ↔
      (s.app.connections client).mKeepAliveIntervalSeconds ≠ 0 ∧
        (s.app.connections client).mLastDataReceivedTimestamp +
          (s.app.connections client).mKeepAliveIntervalSeconds.toNat * 2000000000 ≤ now := by
    refine and_congr_right fun _ => (hstamped.forall_le_iff (fun _ _ hle => ?_) now).trans ?_
    · exact Nat.add_le_add_right hle _
    simp only [look]
    omega
  constructor
  · intro hright hout hzero
    have htimedOut : s.app.TimedOut client now := by
      refine ⟨hout, ?_⟩
      rw [hzero]
      exact hstamped.clock.trans hle
    have hlogsOut : client ∈ (s.look client now app).loggedOut :=
      (hmem client).mpr ⟨h.mem_mClients hit, rfl, htimedOut⟩
    exact (hright.mem_iff.mp hlogsOut).2.1 hzero
  · intro hinterval
    refine ⟨?_, fun c hc => ((hmem c).mp hc).2.1⟩
    refine (hmem client).trans ?_
    constructor
    · rintro ⟨-, -, hout, hold⟩
      exact ⟨hout, hsilent.mpr ⟨hinterval hout, hold⟩⟩
    · rintro ⟨hout, hquiet⟩
      exact ⟨h.mem_mClients hit, rfl, hout, (hsilent.mp hquiet).2⟩

/-! ## Runs -/

theorem Tracks.step (h : s.Tracks) (hstep : s.step event = some t) : t.Tracks := by
  cases event with
  | action action =>
      obtain ⟨⟨hallowed, htime⟩, hstep⟩ := Option.ite_none_right_eq_some.mp hstep
      obtain ⟨app, happ, rfl⟩ := Option.map_eq_some_iff.mp hstep
      exact h.action hallowed htime happ
  | cleanup =>
      obtain ⟨-, hstep⟩ := Option.ite_none_right_eq_some.mp hstep
      cases hstep
      exact ⟨h.tabled, h.stamped, fun rest hit => Option.some.inj hit ▸ rfl⟩
  | check now =>
      simp only [Passes.step] at hstep
      split at hstep
      · next client rest hit =>
          obtain ⟨hle, hstep⟩ := Option.ite_none_right_eq_some.mp hstep
          obtain ⟨app, hcheck, rfl⟩ := Option.map_eq_some_iff.mp hstep
          exact h.check hit hle (checked_of_check h.tabled hcheck)
      · cases hstep
  | cleanupEnd =>
      obtain ⟨-, hstep⟩ := Option.ite_none_right_eq_some.mp hstep
      cases hstep
      exact ⟨h.tabled, h.stamped, fun rest hit => by cases hit⟩

theorem keepsAlive_step_iff (h : s.Tracks) (hkeeps : s.KeepsAlive) (hstep : s.step event = some t) :
    t.KeepsAlive ↔ s.HasInterval event := by
  have ht := h.step hstep
  have hsame : t.checks = s.checks ∨ t.checks = [] → t.KeepsAlive := by
    rintro (hchecks | hchecks)
    · refine ⟨?_, ?_, ht.complete⟩
      · rw [hchecks]
        exact hkeeps.right
      · rw [hchecks]
        exact hkeeps.spares
    · refine ⟨?_, ?_, ht.complete⟩
      · rw [hchecks]
        exact List.forall_mem_nil _
      · rw [hchecks]
        exact List.forall_mem_nil _
  cases event with
  | action action =>
      obtain ⟨-, hstep⟩ := Option.ite_none_right_eq_some.mp hstep
      obtain ⟨app, -, rfl⟩ := Option.map_eq_some_iff.mp hstep
      exact iff_of_true (hsame (.inl rfl)) trivial
  | cleanup =>
      obtain ⟨-, hstep⟩ := Option.ite_none_right_eq_some.mp hstep
      cases hstep
      exact iff_of_true (hsame (.inr rfl)) trivial
  | check now =>
      simp only [Passes.step] at hstep
      split at hstep
      · next client rest hit =>
          obtain ⟨hle, hstep⟩ := Option.ite_none_right_eq_some.mp hstep
          obtain ⟨app, hcheck, rfl⟩ := Option.map_eq_some_iff.mp hstep
          have hright := right_look_iff h hit hle (checked_of_check h.tabled hcheck)
          have hfound : s.HasInterval (.check now) ↔
              ((s.app.connections client).mLoggedOut = false →
                (s.app.connections client).mKeepAliveIntervalSeconds ≠ 0) := by
            simp only [HasInterval, hit, Option.bind_some, List.head?_cons, Option.mem_def,
              Option.some.injEq, forall_eq']
          rw [hfound, ← hright]
          constructor
          · exact fun hkeeps' => hkeeps'.right _ (List.mem_append_right _ (List.mem_singleton.mpr rfl))
          · intro hlook
            have haccepted := (h.stamped client (h.mem_mClients hit)).first_le hle
            refine ⟨?_, ?_, ht.complete⟩
            · exact List.forall_mem_append.mpr ⟨hkeeps.right, List.forall_mem_singleton.mpr hlook⟩
            · refine List.forall_mem_append.mpr ⟨hkeeps.spares, ?_⟩
              exact List.forall_mem_singleton.mpr (hlook.spares haccepted)
      · cases hstep
  | cleanupEnd =>
      obtain ⟨-, hstep⟩ := Option.ite_none_right_eq_some.mp hstep
      cases hstep
      exact iff_of_true (hsame (.inl rfl)) trivial

/-- Over every run, with receivers at work during the passes, exactly the clients that are
silent are logged out, and in every pass, if and only if the clients a pass comes to have an
interval. Below `2^62` the arithmetic does not overflow. -/
theorem keepsAlive_iff_hasInterval {retained : RetainedMessages} {run : List (Event × Passes τ)}
    (hrun : Runs.IsRun (Runs.StepOf step) (initial retained) run) :
    (Runs.AllStates KeepsAlive run ↔ Runs.AllSteps HasInterval (initial retained) run) ∧
      ∀ (conn : MQTTClientConnection) (now : Nat),
        conn.mLastDataReceivedTimestamp < 2 ^ 62 → now < 2 ^ 62 →
        (timeoutAt (Int64.ofNat conn.mLastDataReceivedTimestamp)
            conn.mKeepAliveIntervalSeconds).toInt =
          conn.mLastDataReceivedTimestamp + conn.mKeepAliveIntervalSeconds.toNat * 2000000000 ∧
        (timeoutAt (Int64.ofNat conn.mLastDataReceivedTimestamp) conn.mKeepAliveIntervalSeconds ≤
            Int64.ofNat now ↔
          conn.mLastDataReceivedTimestamp + conn.mKeepAliveIntervalSeconds.toNat * 2000000000 ≤
            now) := by
  refine ⟨?_, fun conn _ htimestamp hnow => timeoutAt_exact conn htimestamp hnow⟩
  refine hrun.allStates_iff_allSteps (I := Tracks) (fun _ _ _ h _ _ hstep => h.step hstep)
    (fun _ _ _ h hkeeps hstep => keepsAlive_step_iff h hkeeps hstep) ⟨?_, ?_, ?_⟩ ⟨?_, ?_, ?_⟩
  · exact ApplicationState.tabled_initial retained
  · exact List.forall_mem_nil _
  · exact fun rest hit => absurd hit.symm (Option.some_ne_none rest)
  · exact List.forall_mem_nil _
  · exact List.forall_mem_nil _
  · exact fun rest hit => absurd hit.symm (Option.some_ne_none rest)

end

/-- A client announces its interval after a second. Passes come to it a second and three
seconds later. -/
def passesOver (keepAlive : UInt16) : List Event :=
  [.action (.newConnection [] 0), .action (.receiveData 0 1000000000),
    .action (.connect 0 ⟨.v4, keepAlive, [0x61], .no, none, Action.kept_of_id⟩),
    .cleanup, .check 2000000000, .cleanupEnd, .cleanup, .check 4000000000, .cleanupEnd]

/-- With an interval of one second, the second pass logs it out. -/
theorem keepsAlive_passesOver :
    (Runs.runOf (@step SubscriptionList .standard _) (initial ∅) (passesOver 1)).length = 9 ∧
      Runs.AllStates KeepsAlive
        (Runs.runOf (@step SubscriptionList .standard _) (initial ∅) (passesOver 1)) ∧
      (timeoutAt (Int64.ofNat 1000000000) 1).toInt = 1000000000 + 1 * 2000000000 := by
  have hboth := @keepsAlive_iff_hasInterval SubscriptionList .standard _ ∅ _
    (Runs.isRun_runOf (@step SubscriptionList .standard _) (initial ∅) (passesOver 1))
  refine ⟨by decide +kernel, hboth.1.mpr (by decide +kernel), ?_⟩
  exact (hboth.2 { mKeepAliveIntervalSeconds := 1, mLastDataReceivedTimestamp := 1000000000 }
    2000000000 (by decide) (by decide)).1

/-- Without one, the first does. -/
theorem not_keepsAlive_passesOver :
    ¬ Runs.AllStates KeepsAlive
      (Runs.runOf (@step SubscriptionList .standard _) (initial ∅) (passesOver 0)) := by
  intro h
  have hright : Runs.AllStates (fun s => ∀ check ∈ s.checks, check.Right)
      (Runs.runOf (@step SubscriptionList .standard _) (initial ∅) (passesOver 0)) :=
    fun x hx => (h x hx).right
  revert hright
  decide +kernel

end Passes

end NioevMqtt
