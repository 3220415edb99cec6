-- SUMMARY: The sockets of the connections: epoll hands a thread no connection that has been freed, a thread reads from and writes to the socket of the connection it works for, and the sockets that are open are those of the connections there are.
import NioevMqtt.Broker.SuspendedCleanup
import NioevMqtt.Broker.SessionTable

/-!
# Descriptors

The kernel gives the number of a closed socket to the next one. A connection is known to
`epoll` by a pointer, from `addClientConnection` on and up to its logout, and a thread has
up to 128 such pointers before it comes to the last of them. Its socket is closed when it
is freed, by the destructor.
-/

namespace NioevMqtt

namespace ApplicationState

variable {τ : Type} {s t : ApplicationState τ} [Libnioev] [SubscriptionTree τ]

/-- Only `handleNewClientConnection` makes connections. -/
theorem nextConnection_stepOk {action : Action} (h : s.Linked) (hstep : s.stepOk action = some t)
    (hnew : ∀ remote now, action ≠ .newConnection remote now) :
    t.nextConnection = s.nextConnection := by
  have hview : ∀ {v : View τ}, t.view = v → v.nextConnection = s.nextConnection →
      t.nextConnection = s.nextConnection := by
    rintro _ rfl hv
    exact hv
  have hlogsOut : ∀ {client v}, s.view.LogsOut client v → v.nextConnection = s.nextConnection := by
    intro client v hout
    cases hout with
    | _ => rfl
  have hstep' := step_of_stepOk hstep
  have hsteps := steps_of_step hstep'
  cases hsteps with
  | newConnection => exact absurd rfl (hnew _ _)
  | packet =>
      obtain ⟨work, -, hleaves⟩ := (leavesWork_handlePacketReceived s _ _).noLogin
      exact hview hleaves rfl
  | @proceed thread lockTaken work rest _ _ hok =>
      by_cases hrequest : ∃ change, work = .request change
      · obtain ⟨change, rfl⟩ := hrequest
        rcases view_proceed_request hok with hview' | ⟨hview', -⟩
        · exact hview hview' rfl
        · exact hview hview' rfl
      · exact hview (view_proceed hok fun change heq => hrequest ⟨change, heq⟩) rfl
  | @execute randomChars =>
      generalize haction : Action.execute randomChars = action at hstep'
      cases transition_of_step h hstep' with
      | quiet hquiet => exact absurd haction.symm (hquiet randomChars)
      | logsOut hquiet => exact absurd haction.symm (hquiet randomChars)
      | executes hqueue hexecutes hreaches =>
          refine hview hreaches.view_eq ?_
          generalize Request.change _ = change at hexecutes
          cases hexecutes with
          | loginClient hin =>
              cases hin with
              | _ => rfl
          | logoutClient hout =>
              cases hout with
              | _ => rfl
          | _ => rfl
  | executeInternal hqueue hok => exact hview (executeInternal_quiet h hqueue hok).view_eq rfl
  | logoutSendError hclient hok =>
      obtain ⟨v, hout, hreaches⟩ := logoutClient_reaches h.view.toAttached hok
      exact hview hreaches.view_eq (hlogsOut hout)
  | timeout hclient htimedOut hok =>
      obtain ⟨v, hout, hreaches⟩ := logoutClient_reaches h.view.toAttached hok
      exact hview hreaches.view_eq (hlogsOut hout)
  | _ => rfl
end ApplicationState

/-- The number of an open file. -/
abbrev Descriptor := Nat

/-- The broker, its threads and the sockets. -/
structure Descriptors (ι τ : Type) where
  threaded : ThreadedBroker ι τ
  /-- The sockets that are open, each with the connection it has been accepted for. -/
  sockets : Descriptor → Option ConnectionId := fun _ => none
  /-- `conn` in `TcpServer::loopThreadFunc`. -/
  conn : Option Descriptor := none
  mSockFd : ConnectionId → Option Descriptor := fun _ => none
  /-- What `mEpollFd` watches, with the pointers it has been given. -/
  watched : Descriptor → Option ConnectionId := fun _ => none
  /-- What `epoll_pwait` has handed a thread and the thread has not come to. -/
  events : ι → List ConnectionId := fun _ => []
  /-- `fd` in `recv` and `sendScatter`. -/
  loaded : ι → Option Descriptor := fun _ => none
  /-- The system calls: the connection that has made one, and whose socket it was for. -/
  calls : List (ConnectionId × Option ConnectionId) := []

namespace Descriptors

open ApplicationState (Action)

variable {ι τ : Type} [DecidableEq ι] [Fintype ι]

inductive DescriptorAction (ι : Type) where
  | accept (fd : Descriptor)
  /-- `handleNewClientConnection`; what is left of `conn` is destroyed. -/
  | newConnection (remote : ByteString) (now : Nat)
  /-- `epoll_pwait` returns with these. -/
  | poll (i : ι) (fds : List Descriptor)
  /-- A thread comes to the next of its events. -/
  | next (i : ι)
  | load (i : ι)
  | call (i : ι)
  | leave (i : ι)
  | thread (action : ThreadAction ι)
  | broker (action : Action)

def broker (w : Descriptors ι τ) : ApplicationState τ := w.threaded.broker

/-- `epoll_ctl` with `EPOLL_CTL_DEL`, for each of the connections. -/
def unwatch (w : Descriptors ι τ) (clients : List ConnectionId) :
    Descriptor → Option ConnectionId := fun fd =>
  if ∃ client ∈ clients, w.mSockFd client = some fd then none else w.watched fd

/-- The destructors: `close` of `TcpClientConnection`. -/
def close (w : Descriptors ι τ) (clients : List ConnectionId) : Descriptors ι τ :=
  { w with
    sockets := fun fd =>
      if ∃ client ∈ clients, w.mSockFd client = some fd then none else w.sockets fd
    mSockFd := fun client => if client ∈ clients then none else w.mSockFd client }

/-- The connections that are logged out now, and were not before. -/
def loggedOut (s t : ApplicationState τ) : List ConnectionId :=
  s.mClients.filter fun client =>
    (s.connections client).mLoggedOut = false ∧ (t.connections client).mLoggedOut = true

/-- The connections that are there no longer. -/
def freed (s t : ApplicationState τ) : List ConnectionId :=
  s.mClients.filter fun client => client ∉ t.mClients

/-- A thread goes on in its loop when it is through with its events. -/
def MayStep (w : Descriptors ι τ) : ThreadAction ι → Prop
  | .receiver i => w.events i = []
  | .events _ => False
  | _ => True

instance decidableMayStep (w : Descriptors ι τ) :
    (action : ThreadAction ι) → Decidable (w.MayStep action)
  | .receiver i => decidable_of_iff ((w.events i).isEmpty = true) List.isEmpty_iff
  | .events _ => isFalse id
  | .signal _ | .suspender | .error _ | .quit | .kill _ => isTrue trivial

variable [Libnioev] [SubscriptionTree τ]

def step (w : Descriptors ι τ) : DescriptorAction ι → Option (Descriptors ι τ)
  | .accept fd =>
    if w.conn = none ∧ w.sockets fd = none then
      some { w with
        sockets := Function.update w.sockets fd (some w.broker.nextConnection)
        conn := some fd }
    else none
  | .newConnection remote now =>
    match w.conn with
    | none => none
    | some fd =>
      (w.threaded.step (.broker (.newConnection remote now))).map fun threaded =>
        { w with
          threaded
          conn := none
          mSockFd := Function.update w.mSockFd w.broker.nextConnection (some fd)
          watched := Function.update w.watched fd (some w.broker.nextConnection) }
  | .poll i fds =>
    if fds.length ≤ 128 ∧ ∀ fd ∈ fds, (w.watched fd).isSome then
      (w.threaded.step (.thread (.events i))).map fun threaded =>
        { w with threaded, events := Function.update w.events i (fds.filterMap w.watched) }
    else none
  | .next i =>
    match w.events i with
    | [] => none
    | client :: rest =>
      (w.threaded.step (.serve i client)).map fun threaded =>
        { w with threaded, events := Function.update w.events i rest }
  | .load i =>
    (w.threaded.serving i).map fun client =>
      { w with loaded := Function.update w.loaded i (w.mSockFd client) }
  | .call i =>
    match w.threaded.serving i, w.loaded i with
    | some client, some fd =>
      some { w with
        calls := w.calls ++ [(client, w.sockets fd)]
        loaded := Function.update w.loaded i none }
    -- It throws if it has found -1.
    | _, _ => none
  | .leave i =>
    (w.threaded.step (.leave i)).map fun threaded =>
      { w with threaded, loaded := Function.update w.loaded i none }
  | .thread action =>
    if w.MayStep action then
      (w.threaded.step (.thread action)).map fun threaded => { w with threaded }
    else none
  | .broker (.newConnection _ _) => none
  | .broker action =>
    (w.threaded.step (.broker action)).map fun threaded =>
      { w with threaded, watched := w.unwatch (loggedOut w.broker threaded.broker) }.close
        (freed w.broker threaded.broker)

omit [DecidableEq ι] [Fintype ι] [Libnioev] in
def initial (retained : AList fun _ : ByteString => RetainedMessage) : Descriptors ι τ where
  threaded := .initial retained

/-! ## What holds in every state -/

structure Sound (w : Descriptors ι τ) : Prop where
  attended : w.threaded.Attended
  tabled : w.broker.Tabled
  /-- A connection that is there has a socket, and the others have none. -/
  has_iff : ∀ client, client ∈ w.broker.mClients ↔ (w.mSockFd client).isSome
  owned : ∀ fd client, w.sockets fd = some client ↔
    w.mSockFd client = some fd ∨ w.conn = some fd ∧ client = w.broker.nextConnection
  watched : ∀ fd client, w.watched fd = some client →
    w.mSockFd client = some fd ∧ (w.broker.connections client).mLoggedOut = false
  inBody : ∀ i, w.events i ≠ [] → w.threaded.threads.pc i = .handling
  there : ∀ i client, client ∈ w.events i ∨ w.threaded.serving i = some client →
    client ∈ w.broker.mClients
  loaded : ∀ i fd, w.loaded i = some fd →
    ∃ client, w.threaded.serving i = some client ∧ w.mSockFd client = some fd
  own : ∀ x ∈ w.calls, x.2 = some x.1

variable {w w' : Descriptors ι τ}

omit [DecidableEq ι] [Fintype ι] [Libnioev] in
theorem sound_initial (retained : AList fun _ : ByteString => RetainedMessage) :
    (initial retained : Descriptors ι τ).Sound where
  attended := ThreadedBroker.attended_initial retained
  tabled := ApplicationState.tabled_initial retained
  has_iff := fun _ => by simp [initial, broker, ThreadedBroker.initial, ApplicationState.initial]
  owned := fun _ _ => by simp [initial]
  watched := fun _ _ h => by cases h
  inBody := fun _ h => absurd rfl h
  there := fun _ _ h => by rcases h with h | h <;> cases h
  loaded := fun _ _ h => by cases h
  own := fun _ h => by cases h

section

omit [DecidableEq ι] [Fintype ι] [Libnioev] [SubscriptionTree τ]

/-- The socket of a connection is its own. -/
theorem Sound.sockets_eq (h : w.Sound) {fd : Descriptor} {client : ConnectionId}
    (hfd : w.mSockFd client = some fd) : w.sockets fd = some client :=
  (h.owned fd client).mpr (.inl hfd)

theorem Sound.mem_of_mSockFd (h : w.Sound) {fd : Descriptor} {client : ConnectionId}
    (hfd : w.mSockFd client = some fd) : client ∈ w.broker.mClients :=
  (h.has_iff client).mpr (by rw [hfd]; rfl)

/-- A connection that is to come has no socket yet. -/
theorem Sound.mSockFd_next (h : w.Sound) : w.mSockFd w.broker.nextConnection = none := by
  cases hfd : w.mSockFd w.broker.nextConnection with
  | none => rfl
  | some fd =>
      have hlt := h.attended.broker.view.clients _ (h.mem_of_mSockFd hfd)
      exact absurd hlt (Nat.lt_irrefl _)

theorem Sound.accept (h : w.Sound) {fd : Descriptor} (hconn : w.conn = none)
    (hfree : w.sockets fd = none) :
    Sound { w with
      sockets := Function.update w.sockets fd (some w.broker.nextConnection)
      conn := some fd } := by
  refine ⟨h.attended, h.tabled, h.has_iff, fun fd' client => ?_, h.watched, h.inBody, h.there,
    h.loaded, h.own⟩
  show Function.update w.sockets fd (some w.broker.nextConnection) fd' = some client ↔
    w.mSockFd client = some fd' ∨ some fd = some fd' ∧ client = w.broker.nextConnection
  by_cases hfd : fd' = fd
  · subst hfd
    rw [Function.update_self]
    have hnobody : w.mSockFd client ≠ some fd' := by
      intro hsome
      rw [h.sockets_eq hsome] at hfree
      cases hfree
    constructor
    · intro heq
      exact .inr ⟨rfl, (Option.some.inj heq).symm⟩
    · rintro (hsome | ⟨-, rfl⟩)
      · exact absurd hsome hnobody
      · rfl
  · rw [Function.update_of_ne hfd, h.owned, hconn]
    refine or_congr_right ?_
    exact iff_of_false (fun hsome => by cases hsome.1) fun hsome => hfd (Option.some.inj hsome.1).symm

end

theorem stepOk_newConnection {s t : ApplicationState τ} {remote : ByteString} {now : Nat}
    (hstep : s.stepOk (.newConnection remote now) = some t) :
    t = s.handleNewClientConnection remote now := by
  cases hstep
  rfl

/-- A connection gets the socket that has been accepted for it. -/
theorem Sound.newConnection (h : w.Sound) {remote : ByteString} {now : Nat} {fd : Descriptor}
    (hconn : w.conn = some fd) {threaded : ThreadedBroker ι τ}
    (hstep : w.threaded.step (.broker (.newConnection remote now)) = some threaded) :
    Sound { w with
      threaded
      conn := none
      mSockFd := Function.update w.mSockFd w.broker.nextConnection (some fd)
      watched := Function.update w.watched fd (some w.broker.nextConnection) } := by
  obtain ⟨hbroker, hthreads, hserving, -⟩ := h.attended.stepOk hstep
  have htabled : threaded.broker.Tabled := h.tabled.step (ApplicationState.step_of_stepOk hbroker)
  have hattended := h.attended.broker_step hstep
  have hafter := stepOk_newConnection hbroker
  have hclients : threaded.broker.mClients = w.broker.mClients ++ [w.broker.nextConnection] := by
    rw [hafter]
    rfl
  have hnone := h.mSockFd_next
  have hold : ∀ {client fd'}, w.mSockFd client = some fd' → client ≠ w.broker.nextConnection := by
    rintro client fd' hsome rfl
    rw [hnone] at hsome
    cases hsome
  refine ⟨hattended, htabled, fun client => ?_, fun fd' client => ?_, fun fd' client hwatched => ?_,
    ?_, fun i client hclient => ?_, fun i fd' hloaded => ?_, h.own⟩
  · show client ∈ threaded.broker.mClients ↔
      (Function.update w.mSockFd w.broker.nextConnection (some fd) client).isSome
    rw [hclients, List.mem_append, List.mem_singleton, h.has_iff]
    by_cases hclient : client = w.broker.nextConnection
    · subst hclient
      rw [Function.update_self]
      exact iff_of_true (.inr rfl) rfl
    · rw [Function.update_of_ne hclient]
      exact or_iff_left hclient
  · show w.sockets fd' = some client ↔
      Function.update w.mSockFd w.broker.nextConnection (some fd) client = some fd' ∨
        none = some fd' ∧ _
    rw [h.owned, hconn]
    by_cases hclient : client = w.broker.nextConnection
    · subst hclient
      rw [Function.update_self, hnone]
      simp
    · rw [Function.update_of_ne hclient]
      simp [hclient]
  · show Function.update w.mSockFd w.broker.nextConnection (some fd) client = some fd' ∧
      (threaded.broker.connections client).mLoggedOut = false
    rw [hafter]
    by_cases hfd : fd' = fd
    · subst hfd
      have hclient : Function.update w.watched fd' (some w.broker.nextConnection) fd' =
          some client := hwatched
      rw [Function.update_self] at hclient
      cases hclient
      have hnew : (w.broker.handleNewClientConnection remote now).connections
          w.broker.nextConnection = { mRemote := remote, mLastDataReceivedTimestamp := now } :=
        Function.update_self _ _ _
      exact ⟨Function.update_self _ _ _, congrArg MQTTClientConnection.mLoggedOut hnew⟩
    · have hclient : Function.update w.watched fd (some w.broker.nextConnection) fd' =
          some client := hwatched
      rw [Function.update_of_ne hfd] at hclient
      obtain ⟨hsome, hout⟩ := h.watched fd' client hclient
      have hsame : (w.broker.handleNewClientConnection remote now).connections client =
          w.broker.connections client := Function.update_of_ne (hold hsome) _ _
      exact ⟨(Function.update_of_ne (hold hsome) _ _).trans hsome,
        (congrArg MQTTClientConnection.mLoggedOut hsame).trans hout⟩
  · show ∀ i, w.events i ≠ [] → threaded.threads.pc i = .handling
    rw [hthreads]
    exact h.inBody
  · have hclient' : client ∈ w.events i ∨ threaded.serving i = some client := hclient
    rw [hserving] at hclient'
    show client ∈ threaded.broker.mClients
    rw [hclients]
    exact List.mem_append_left _ (h.there i client hclient')
  · obtain ⟨client, hclient, hsome⟩ := h.loaded i fd' hloaded
    refine ⟨client, ?_, (Function.update_of_ne (hold hsome) _ _).trans hsome⟩
    show threaded.serving i = some client
    rw [hserving]
    exact hclient

omit [DecidableEq ι] [Fintype ι] [Libnioev] [SubscriptionTree τ] in
/-- Whoever is suspended has no event left, and works for nobody. -/
theorem Sound.idle_of_suspended (h : w.Sound)
    (hsuspended : w.threaded.threads.suspender = .suspended) (i : ι) :
    w.events i = [] ∧ w.threaded.serving i = none := by
  have hpc : w.threaded.threads.pc i ≠ .handling := by
    intro hpc
    have hholds := h.attended.threads.holds_eq_false hsuspended i
    rw [hpc] at hholds
    cases hholds
  exact ⟨Classical.byContradiction fun hevents => hpc (h.inBody i hevents),
    Classical.byContradiction fun hserving => hpc (h.attended.inBody i hserving)⟩

omit [DecidableEq ι] [Fintype ι] [Libnioev] [SubscriptionTree τ] in
/-- Connections are logged out, and freed while nobody works for one. -/
theorem Sound.broker_step (h : w.Sound) {threaded : ThreadedBroker ι τ}
    (hattended : threaded.Attended) (htabled : threaded.broker.Tabled)
    (hthreads : threaded.threads = w.threaded.threads)
    (hserving : threaded.serving = w.threaded.serving)
    (hnext : threaded.broker.nextConnection = w.broker.nextConnection)
    (hsub : threaded.broker.mClients ⊆ w.broker.mClients)
    (hfreed : ∀ client ∈ freed w.broker threaded.broker,
      (w.broker.connections client).mLoggedOut = true)
    (hidle : freed w.broker threaded.broker ≠ [] →
      ∀ i, w.events i = [] ∧ w.threaded.serving i = none) :
    Sound ({ w with
      threaded, watched := w.unwatch (loggedOut w.broker threaded.broker) }.close
        (freed w.broker threaded.broker)) := by
  have hmem : ∀ client, client ∈ freed w.broker threaded.broker ↔
      client ∈ w.broker.mClients ∧ client ∉ threaded.broker.mClients := fun client => by
    rw [freed, List.mem_filter, decide_eq_true_iff]
  refine ⟨hattended, htabled, fun client => ?_, fun fd client => ?_, fun fd client hwatched => ?_,
    ?_, fun i client hclient => ?_, fun i fd hloaded => ?_, h.own⟩
  · show client ∈ threaded.broker.mClients ↔
      (if client ∈ freed w.broker threaded.broker then none else w.mSockFd client).isSome
    split
    · next hgone => exact iff_of_false ((hmem client).mp hgone).2 Bool.false_ne_true
    · next hkept =>
        rw [← h.has_iff]
        exact ⟨fun hclient => hsub hclient, fun hclient =>
          Classical.byContradiction fun hgone => hkept ((hmem client).mpr ⟨hclient, hgone⟩)⟩
  · show (if ∃ c ∈ freed w.broker threaded.broker, w.mSockFd c = some fd then none
        else w.sockets fd) = some client ↔
      (if client ∈ freed w.broker threaded.broker then none else w.mSockFd client) = some fd ∨
        w.conn = some fd ∧ client = threaded.broker.nextConnection
    rw [hnext]
    split
    · -- The socket is closed, and was that of one that is freed.
      next hclosed =>
        obtain ⟨gone, hgone, hfd⟩ := hclosed
        refine iff_of_false (fun heq => by cases heq) ?_
        rintro (hsome | ⟨hconn, -⟩)
        · split at hsome
          · cases hsome
          · next hkept =>
              cases (h.sockets_eq hfd).symm.trans (h.sockets_eq hsome)
              exact hkept hgone
        · have hsocket : w.sockets fd = some w.broker.nextConnection :=
            (h.owned _ _).mpr (.inr ⟨hconn, rfl⟩)
          cases (h.sockets_eq hfd).symm.trans hsocket
          rw [h.mSockFd_next] at hfd
          cases hfd
    · next hopen =>
        rw [h.owned]
        refine or_congr_left ?_
        split
        · next hgone =>
            exact iff_of_false (fun hfd => hopen ⟨client, hgone, hfd⟩) fun heq => by cases heq
        · exact Iff.rfl
  · have hunwatched : w.unwatch (loggedOut w.broker threaded.broker) fd = some client := hwatched
    unfold unwatch at hunwatched
    split at hunwatched
    · cases hunwatched
    · next hkept =>
        obtain ⟨hfd, hin⟩ := h.watched fd client hunwatched
        have hstays : client ∉ freed w.broker threaded.broker := by
          intro hgone
          rw [hfreed client hgone] at hin
          cases hin
        refine ⟨(if_neg hstays).trans hfd, ?_⟩
        by_contra hout
        refine hkept ⟨client, List.mem_filter.mpr ⟨h.mem_of_mSockFd hfd, ?_⟩, hfd⟩
        exact decide_eq_true ⟨hin, Bool.eq_true_of_not_eq_false hout⟩
  · show ∀ i, w.events i ≠ [] → threaded.threads.pc i = .handling
    rw [hthreads]
    exact h.inBody
  · have hheld : client ∈ w.events i ∨ w.threaded.serving i = some client :=
      hserving ▸ hclient
    have hthere := h.there i client hheld
    by_contra hgone
    obtain ⟨hevents, hnobody⟩ := hidle
      (List.ne_nil_of_mem ((hmem client).mpr ⟨hthere, hgone⟩)) i
    rw [hevents, hnobody] at hheld
    rcases hheld with hheld | hheld
    · cases hheld
    · cases hheld
  · obtain ⟨client, hclient, hfd⟩ := h.loaded i fd hloaded
    have hstays : client ∉ freed w.broker threaded.broker := by
      intro hgone
      have hnobody := (hidle (List.ne_nil_of_mem hgone) i).2
      rw [hclient] at hnobody
      cases hnobody
    refine ⟨client, ?_, (if_neg hstays).trans hfd⟩
    show threaded.serving i = some client
    rw [hserving]
    exact hclient

theorem Sound.broker (h : w.Sound) {action : Action}
    (hnew : ∀ remote now, action ≠ .newConnection remote now) {threaded : ThreadedBroker ι τ}
    (hstep : w.threaded.step (.broker action) = some threaded) :
    Sound ({ w with
      threaded, watched := w.unwatch (loggedOut w.broker threaded.broker) }.close
        (freed w.broker threaded.broker)) := by
  obtain ⟨hbroker, hthreads, hserving, -⟩ := h.attended.stepOk hstep
  have htabled : threaded.broker.Tabled := h.tabled.step (ApplicationState.step_of_stepOk hbroker)
  have hnext := ApplicationState.nextConnection_stepOk h.attended.broker hbroker hnew
  by_cases hcleanup : action = .cleanup
  · subst hcleanup
    obtain ⟨⟨hsuspended, -⟩, heq⟩ := Option.ite_none_right_eq_some.mp hstep
    have hafter : threaded.broker = w.broker.eraseDisconnected := by
      cases heq
      rfl
    refine h.broker_step (h.attended.broker_step hstep) htabled hthreads hserving hnext ?_ ?_
      fun _ => h.idle_of_suspended hsuspended
    · rw [hafter]
      exact List.filter_subset_self _
    · intro client hgone
      obtain ⟨hclient, hlost⟩ := List.mem_filter.mp hgone
      by_contra hin
      refine of_decide_eq_true hlost ?_
      rw [hafter]
      exact List.mem_filter.mpr ⟨hclient, decide_eq_true fun hout => hin hout.1⟩
  · have hclients : threaded.broker.mClients = w.broker.mClients :=
      ApplicationState.mClients_stepOk h.tabled hbroker hnew hcleanup
    have hnobody : freed w.broker threaded.broker = [] :=
      List.filter_eq_nil_iff.mpr fun client hclient hlost =>
        of_decide_eq_true hlost (hclients ▸ hclient)
    refine h.broker_step (h.attended.broker_step hstep) htabled hthreads hserving hnext ?_ ?_ ?_
    · rw [hclients]
      exact List.Subset.refl _
    · rw [hnobody]
      exact fun _ hclient => by cases hclient
    · exact fun hne => absurd hnobody hne

/-- What the threads do changes neither the broker nor whom they work for. -/
theorem threads_step {threaded threaded' : ThreadedBroker ι τ} {action : ThreadAction ι}
    (hstep : threaded.step (.thread action) = some threaded') :
    ∃ threads, threaded.threads.step action = some threads ∧
      { threaded with threads } = threaded' :=
  Option.map_eq_some_iff.mp (Option.ite_none_right_eq_some.mp hstep).2

theorem Sound.poll (h : w.Sound) {i : ι} {fds : List Descriptor} {threaded : ThreadedBroker ι τ}
    (hstep : w.threaded.step (.thread (.events i)) = some threaded) :
    Sound { w with
      threaded, events := Function.update w.events i (fds.filterMap w.watched) } := by
  have hattended := h.attended.step hstep
  obtain ⟨threads, hthreads, rfl⟩ := threads_step hstep
  refine ⟨hattended, h.tabled, h.has_iff, h.owned, h.watched, fun j hj => ?_,
    fun j client hclient => ?_, h.loaded, h.own⟩
  · have hj' : Function.update w.events i (fds.filterMap w.watched) j ≠ [] := hj
    by_cases hij : j = i
    · subst hij
      obtain ⟨-, heq⟩ := Option.ite_none_right_eq_some.mp hthreads
      cases heq
      exact Function.update_self _ _ _
    · rw [Function.update_of_ne hij] at hj'
      exact ThreadedBroker.handling_step hthreads (h.inBody j hj') fun heq => by cases heq
  · have hclient' : client ∈ Function.update w.events i (fds.filterMap w.watched) j ∨
        w.threaded.serving j = some client := hclient
    rcases hclient' with hevent | hserved
    · by_cases hij : j = i
      · subst hij
        rw [Function.update_self] at hevent
        obtain ⟨fd, -, hwatched⟩ := List.mem_filterMap.mp hevent
        exact h.mem_of_mSockFd (h.watched fd client hwatched).1
      · rw [Function.update_of_ne hij] at hevent
        exact h.there j client (.inl hevent)
    · exact h.there j client (.inr hserved)

/-- A thread comes to one of its events. -/
theorem Sound.next (h : w.Sound) {i : ι} {client : ConnectionId} {rest : List ConnectionId}
    (hevents : w.events i = client :: rest) {threaded : ThreadedBroker ι τ}
    (hstep : w.threaded.step (.serve i client) = some threaded) :
    Sound { w with threaded, events := Function.update w.events i rest } := by
  have hattended := h.attended.step hstep
  obtain ⟨⟨hpc, hnone⟩, heq⟩ := Option.ite_none_right_eq_some.mp hstep
  cases heq
  refine ⟨hattended, h.tabled, h.has_iff, h.owned, h.watched, fun j hj => ?_,
    fun j c hc => ?_, fun j fd hloaded => ?_, h.own⟩
  · by_cases hij : j = i
    · rw [hij]
      exact hpc
    · have hj' : Function.update w.events i rest j ≠ [] := hj
      rw [Function.update_of_ne hij] at hj'
      exact h.inBody j hj'
  · have hc' : c ∈ Function.update w.events i rest j ∨
        Function.update w.threaded.serving i (some client) j = some c := hc
    by_cases hij : j = i
    · subst hij
      rw [Function.update_self, Function.update_self] at hc'
      refine h.there j c (.inl ?_)
      rw [hevents]
      rcases hc' with hlater | heq
      · exact List.mem_cons_of_mem _ hlater
      · cases heq
        exact List.mem_cons_self
    · rw [Function.update_of_ne hij, Function.update_of_ne hij] at hc'
      exact h.there j c hc'
  · obtain ⟨c, hserved, hfd⟩ := h.loaded j fd hloaded
    have hij : j ≠ i := by
      rintro rfl
      rw [hnone] at hserved
      cases hserved
    exact ⟨c, (Function.update_of_ne hij _ _).trans hserved, hfd⟩

omit [Fintype ι] [Libnioev] [SubscriptionTree τ] in
theorem Sound.load (h : w.Sound) {i : ι} {client : ConnectionId}
    (hserving : w.threaded.serving i = some client) :
    Sound { w with loaded := Function.update w.loaded i (w.mSockFd client) } := by
  refine ⟨h.attended, h.tabled, h.has_iff, h.owned, h.watched, h.inBody, h.there,
    fun j fd hloaded => ?_, h.own⟩
  have hloaded' : Function.update w.loaded i (w.mSockFd client) j = some fd := hloaded
  by_cases hij : j = i
  · subst hij
    rw [Function.update_self] at hloaded'
    exact ⟨client, hserving, hloaded'⟩
  · rw [Function.update_of_ne hij] at hloaded'
    exact h.loaded j fd hloaded'

omit [Fintype ι] [Libnioev] [SubscriptionTree τ] in
/-- What has been loaded is forgotten. -/
theorem Sound.loaded_of (h : w.Sound) {i j : ι} {fd : Descriptor}
    (hloaded : Function.update w.loaded i none j = some fd) :
    j ≠ i ∧ ∃ client, w.threaded.serving j = some client ∧ w.mSockFd client = some fd := by
  have hij : j ≠ i := by
    rintro rfl
    rw [Function.update_self] at hloaded
    cases hloaded
  rw [Function.update_of_ne hij] at hloaded
  exact ⟨hij, h.loaded j fd hloaded⟩

omit [Fintype ι] [Libnioev] [SubscriptionTree τ] in
/-- The descriptor is still that of the connection. -/
theorem Sound.call (h : w.Sound) {i : ι} {client : ConnectionId} {fd : Descriptor}
    (hserving : w.threaded.serving i = some client) (hloaded : w.loaded i = some fd) :
    Sound { w with
      calls := w.calls ++ [(client, w.sockets fd)]
      loaded := Function.update w.loaded i none } := by
  refine ⟨h.attended, h.tabled, h.has_iff, h.owned, h.watched, h.inBody, h.there,
    fun j fd' hloaded' => (h.loaded_of hloaded').2, fun x hx => ?_⟩
  rcases List.mem_append.mp hx with hold | hnew
  · exact h.own x hold
  · obtain ⟨served, hserved, hfd⟩ := h.loaded i fd hloaded
    cases hserving.symm.trans hserved
    rw [List.mem_singleton.mp hnew]
    exact h.sockets_eq hfd

theorem Sound.leave (h : w.Sound) {i : ι} {threaded : ThreadedBroker ι τ}
    (hstep : w.threaded.step (.leave i) = some threaded) :
    Sound { w with threaded, loaded := Function.update w.loaded i none } := by
  have hattended := h.attended.step hstep
  simp only [ThreadedBroker.step] at hstep
  split at hstep
  · cases hstep
  · obtain ⟨-, heq⟩ := Option.ite_none_right_eq_some.mp hstep
    cases heq
    refine ⟨hattended, h.tabled, h.has_iff, h.owned, h.watched, h.inBody, fun j c hc => ?_,
      fun j fd hloaded => ?_, h.own⟩
    · refine h.there j c (hc.imp_right fun hserved => ?_)
      have hserved' : Function.update w.threaded.serving i none j = some c := hserved
      by_cases hij : j = i
      · rw [hij, Function.update_self] at hserved'
        cases hserved'
      · rwa [Function.update_of_ne hij] at hserved'
    · obtain ⟨hij, c, hserved, hfd⟩ := h.loaded_of hloaded
      exact ⟨c, (Function.update_of_ne hij _ _).trans hserved, hfd⟩

theorem Sound.thread (h : w.Sound) {action : ThreadAction ι} (hmay : w.MayStep action)
    {threaded : ThreadedBroker ι τ} (hstep : w.threaded.step (.thread action) = some threaded) :
    Sound { w with threaded } := by
  have hattended := h.attended.step hstep
  obtain ⟨threads, hthreads, rfl⟩ := threads_step hstep
  refine ⟨hattended, h.tabled, h.has_iff, h.owned, h.watched, fun i hi => ?_, h.there, h.loaded,
    h.own⟩
  refine ThreadedBroker.handling_step hthreads (h.inBody i hi) ?_
  rintro rfl
  exact hi hmay

theorem Sound.step (h : w.Sound) {action : DescriptorAction ι} (hstep : w.step action = some w') :
    w'.Sound := by
  cases action with
  | accept fd =>
      obtain ⟨⟨hconn, hfree⟩, heq⟩ := Option.ite_none_right_eq_some.mp hstep
      cases heq
      exact h.accept hconn hfree
  | newConnection remote now =>
      simp only [Descriptors.step] at hstep
      split at hstep
      · cases hstep
      · next fd hconn =>
          obtain ⟨threaded, hnew, rfl⟩ := Option.map_eq_some_iff.mp hstep
          exact h.newConnection hconn hnew
  | poll i fds =>
      obtain ⟨-, hmap⟩ := Option.ite_none_right_eq_some.mp hstep
      obtain ⟨threaded, hpoll, rfl⟩ := Option.map_eq_some_iff.mp hmap
      exact h.poll hpoll
  | next i =>
      simp only [Descriptors.step] at hstep
      split at hstep
      · cases hstep
      · next client rest hevents =>
          obtain ⟨threaded, hserve, rfl⟩ := Option.map_eq_some_iff.mp hstep
          exact h.next hevents hserve
  | load i =>
      obtain ⟨client, hserving, rfl⟩ := Option.map_eq_some_iff.mp hstep
      exact h.load hserving
  | call i =>
      simp only [Descriptors.step] at hstep
      split at hstep
      · next client fd hserving hloaded =>
          cases hstep
          exact h.call hserving hloaded
      · cases hstep
  | leave i =>
      obtain ⟨threaded, hleave, rfl⟩ := Option.map_eq_some_iff.mp hstep
      exact h.leave hleave
  | thread action =>
      obtain ⟨hmay, hmap⟩ := Option.ite_none_right_eq_some.mp hstep
      obtain ⟨threaded, hthread, rfl⟩ := Option.map_eq_some_iff.mp hmap
      exact h.thread hmay hthread
  | broker action =>
      have hnew : ∀ remote now, action ≠ .newConnection remote now := by
        rintro remote now rfl
        cases hstep
      have hmap : ((w.threaded.step (.broker action)).map fun threaded =>
          { w with threaded, watched := w.unwatch (loggedOut w.broker threaded.broker) }.close
            (freed w.broker threaded.broker)) = some w' := by
        cases action with
        | newConnection remote now => exact absurd rfl (hnew remote now)
        | _ => exact hstep
      obtain ⟨threaded, hbroker, rfl⟩ := Option.map_eq_some_iff.mp hmap
      exact h.broker hnew hbroker

/-! ## Runs -/

/-- Nobody reaches for what has been freed, or for a socket that is not his. -/
structure OwnSockets (w : Descriptors ι τ) : Prop where
  /-- Whomever `epoll` tells a thread of is there, with his socket open. -/
  reaches : ∀ client, (∃ fd, w.watched fd = some client) ∨
    (∃ i, client ∈ w.events i ∨ w.threaded.serving i = some client) →
      client ∈ w.broker.mClients ∧
        ∃ fd, w.mSockFd client = some fd ∧ w.sockets fd = some client
  calls : ∀ x ∈ w.calls, x.2 = some x.1
  /-- The sockets that are open are those of the connections, and the one that is accepted. -/
  opened : ∀ fd, (w.sockets fd).isSome ↔
    w.conn = some fd ∨ ∃ client ∈ w.broker.mClients, w.mSockFd client = some fd

omit [DecidableEq ι] [Fintype ι] [Libnioev] [SubscriptionTree τ] in
theorem Sound.ownSockets (h : w.Sound) : w.OwnSockets where
  reaches := by
    intro client hclient
    have hthere : client ∈ w.broker.mClients := by
      rcases hclient with ⟨fd, hwatched⟩ | ⟨i, hheld⟩
      · exact h.mem_of_mSockFd (h.watched fd client hwatched).1
      · exact h.there i client hheld
    obtain ⟨fd, hfd⟩ := Option.isSome_iff_exists.mp ((h.has_iff client).mp hthere)
    exact ⟨hthere, fd, hfd, h.sockets_eq hfd⟩
  calls := h.own
  opened := by
    intro fd
    rw [Option.isSome_iff_exists]
    constructor
    · rintro ⟨client, hsocket⟩
      rcases (h.owned fd client).mp hsocket with hfd | ⟨hconn, -⟩
      · exact .inr ⟨client, h.mem_of_mSockFd hfd, hfd⟩
      · exact .inl hconn
    · rintro (hconn | ⟨client, -, hfd⟩)
      · exact ⟨_, (h.owned fd _).mpr (.inr ⟨hconn, rfl⟩)⟩
      · exact ⟨client, h.sockets_eq hfd⟩

/-- Over every run of the broker, its threads and the kernel, whatever numbers are given
again. -/
theorem ownSockets_of_isRun {retained : AList fun _ : ByteString => RetainedMessage}
    {run : List (DescriptorAction ι × Descriptors ι τ)}
    (hrun : Runs.IsRun (Runs.StepOf Descriptors.step) (initial retained) run) :
    Runs.AllStates OwnSockets run := by
  intro x hx
  exact (hrun.invariant (fun _ _ _ h hstep => h.step hstep) (sound_initial retained) x hx).ownSockets

/-- Two connections one after the other have the same number. -/
def reused : List (DescriptorAction (Fin 1)) :=
  [.accept 7, .newConnection [] 0, .thread (.receiver 0), .thread (.receiver 0), .poll 0 [7],
    .next 0, .load 0, .call 0, .broker (.receiveError 0), .broker (.proceed (.receiver 0) false),
    .broker (.proceed (.receiver 0) false), .leave 0, .broker (.execute []),
    .thread .suspender, .thread .suspender, .thread (.signal 0), .thread (.receiver 0),
    .thread (.receiver 0), .thread (.receiver 0), .thread (.receiver 0), .thread (.receiver 0),
    .thread (.receiver 0), .thread .suspender, .thread .suspender, .broker .cleanup, .thread .suspender,
    .thread .suspender, .accept 7, .newConnection [] 0, .thread (.receiver 0),
    .thread (.receiver 0), .thread (.receiver 0), .thread (.receiver 0), .poll 0 [7], .next 0,
    .load 0, .call 0]

omit [Libnioev] in
theorem ownSockets_reused :
    let run := Runs.runOf (@step (Fin 1) SubscriptionList _ _ .standard _) (initial ∅) reused
    (Runs.last (initial ∅) run).calls = [(0, some 0), (1, some 1)] ∧
      Runs.AllStates (@OwnSockets (Fin 1) SubscriptionList) run := by
  intro run
  refine ⟨by decide +kernel, ?_⟩
  exact @ownSockets_of_isRun (Fin 1) SubscriptionList _ _ .standard _ ∅ run
    (Runs.isRun_runOf (@step (Fin 1) SubscriptionList _ _ .standard _) _ _)

end Descriptors

end NioevMqtt
