-- SUMMARY: What queued requests name: they are never counted, and what they name is freed by the first cleanup that finds it logged out or deleted.
import NioevMqtt.Broker.Custody
import NioevMqtt.Broker.Subscribers

/-!
# References

No request is counted, so that all counts stay zero and a cleanup frees whatever is logged out
or deleted, also where a request in a queue names it. The pointers in the work of a thread that
receives are good, since a cleanup waits until there are none.
-/

namespace NioevMqtt

open Outcome

namespace Custody

variable {c c' : Custody} {o : RefCounted} {acquired : Option RefCounted}

/-- The invariant between two operations, whatever the queues name. -/
structure Uncounted (c : Custody) : Prop where
  counts : ∀ o, c.refCount o = 0
  working : ∀ thread, ∀ work ∈ c.work thread, ∀ o, work.named = some o → c.Holds thread o

/-! ## One step -/

/-- A thread that had something to do has less. -/
theorem Uncounted.rest (h : c.Uncounted) {thread : Thread} {work : Work} {rest : List Work}
    (hwork : c.work thread = work :: rest) :
    ∀ w ∈ rest, ∀ o, w.named = some o → c.Holds thread o :=
  fun w hw => h.working thread w (hwork ▸ List.mem_cons_of_mem work hw)

theorem Holds.mono {thread : Thread} (h : c.Holds thread o) (howns : c.Owns o → c'.Owns o)
    (hclients : c.mClients ⊆ c'.mClients) : c'.Holds thread o :=
  ⟨howns h.owns, h.receives.imp fun _ => And.imp_left fun hclient => hclients hclient⟩

theorem Uncounted.keeps (h : c.Uncounted) (hkeeps : c.Keeps c') : c'.Uncounted where
  counts := hkeeps.refCount_eq ▸ h.counts
  working := by
    rw [hkeeps.work_eq]
    intro thread work hwork o hnamed
    exact (h.working thread work hwork o hnamed).mono (hkeeps.owns o)
      (hkeeps.mClients_eq ▸ List.Subset.refl _)

theorem owns_setWork {thread : Thread} {work : List Work} :
    (c.setWork thread work).Owns o ↔ c.Owns o := by
  cases o <;> exact Iff.rfl

theorem owns_setNames {names : Set RefCounted} : (c.setNames names).Owns o ↔ c.Owns o := by
  cases o <;> exact Iff.rfl

theorem Uncounted.setWork (h : c.Uncounted) {thread : Thread} {work : List Work}
    (hwork : ∀ w ∈ work, ∀ o, w.named = some o → c.Holds thread o) :
    (c.setWork thread work).Uncounted where
  counts := h.counts
  working := by
    intro thread' w hw o hnamed
    by_cases hthread : thread' = thread
    · subst hthread
      have hself : (c.setWork thread' work).work thread' = work := Function.update_self _ _ _
      exact (hwork w (hself ▸ hw) o hnamed).mono owns_setWork.mpr (List.Subset.refl _)
    · have hother : (c.setWork thread work).work thread' = c.work thread' :=
        Function.update_of_ne hthread _ _
      exact (h.working thread' w (hother ▸ hw) o hnamed).mono owns_setWork.mpr (List.Subset.refl _)

theorem Uncounted.setNames (h : c.Uncounted) (names : Set RefCounted) :
    (c.setNames names).Uncounted where
  counts := h.counts
  working := fun thread w hw o hnamed =>
    (h.working thread w hw o hnamed).mono owns_setNames.mpr (List.Subset.refl _)

theorem owns_newConnection {client : ConnectionId} (howns : c.Owns o) :
    (c.newConnection client).Owns o := by
  cases o with
  | connection _ => exact List.mem_append_left _ howns
  | session _ => exact howns

theorem Uncounted.newConnection (h : c.Uncounted) (client : ConnectionId) :
    (c.newConnection client).Uncounted where
  counts := by
    have hsame : (c.newConnection client).refCount = c.refCount := by
      unfold Custody.newConnection
      rw [← h.counts (.connection client)]
      exact Function.update_eq_self _ _
    exact hsame ▸ h.counts
  working := fun thread work hwork o hnamed =>
    (h.working thread work hwork o hnamed).mono owns_newConnection (List.subset_append_left _ _)

/-- Nobody has a pointer of his own, since the threads that receive have nothing to do. -/
theorem Uncounted.eraseDisconnected (h : c.Uncounted)
    (hidle : ∀ client ∈ c.mClients, c.work (.receiver client) = []) :
    c.eraseDisconnected.Uncounted where
  counts := h.counts
  working := fun thread work hwork o hnamed => by
    obtain ⟨-, client, hclient, rfl⟩ := h.working thread work hwork o hnamed
    have hmem : work ∈ c.work (.receiver client) := hwork
    rw [hidle client hclient] at hmem
    cases hmem

theorem Uncounted.moves (h : c.Uncounted) (hmoves : c.Moves acquired c') : c'.Uncounted := by
  cases hmoves with
  | keeps hkeeps => exact h.keeps hkeeps
  | newConnection => exact h.newConnection _
  | setWork hwork => exact h.setWork hwork
  | request hwork hnamed => exact (h.setWork (h.rest hwork)).setNames _

/-! ## What is named -/

/-- Whatever the queues name has not been freed. -/
def Named (c : Custody) : Prop := ∀ o ∈ c.names, c.Owns o

/-- The counts being zero, a cleanup frees all that is logged out or deleted. -/
theorem Uncounted.owns_eraseDisconnected_iff (h : c.Uncounted) (howns : c.Owns o) :
    c.eraseDisconnected.Owns o ↔ c.Survives o := by
  have hzero := h.counts o
  cases o with
  | connection client =>
      refine List.mem_filter.trans ((and_iff_right howns).trans ?_)
      rw [decide_eq_true_iff, and_iff_left hzero]
      exact Bool.eq_false_iff.symm
  | session id =>
      refine or_iff_left fun hdeleted => ?_
      exact of_decide_eq_true (List.mem_filter.mp hdeleted).2 hzero

/-- A request that is queued names something that is there. -/
theorem Named.request (h : c.Named) (hcounts : c.Uncounted) {thread : Thread}
    {change : ChangeRequest} {rest : List Work} (hwork : c.work thread = .request change :: rest)
    (hnamed : change.named = some o) :
    ((c.setWork thread rest).setNames (insert o c.names)).Named := by
  intro x hx
  rw [owns_setNames, owns_setWork]
  rcases hx with rfl | hold
  · exact (hcounts.working thread (.request change) (hwork ▸ List.mem_cons_self) x hnamed).owns
  · exact h x hold

theorem Named.moves (h : c.Named) (hcounts : c.Uncounted) (hmoves : c.Moves acquired c') :
    c'.Named := by
  cases hmoves with
  | keeps hkeeps => exact fun o ho => hkeeps.owns o (h o (hkeeps.names_subset ho))
  | newConnection => exact fun o ho => owns_newConnection (h o ho)
  | setWork hwork => exact fun o ho => owns_setWork.mpr (h o ho)
  | request hwork hnamed => exact h.request hcounts hwork hnamed

/-- A cleanup frees nothing that is named exactly if all of it survives. -/
theorem Named.eraseDisconnected_iff (h : c.Named) (hcounts : c.Uncounted) :
    c.eraseDisconnected.Named ↔ ∀ o ∈ c.names, c.Survives o :=
  forall₂_congr fun o ho => hcounts.owns_eraseDisconnected_iff (h o ho)

/-- Where nothing is named, a step leaves nothing named but what it queues. -/
theorem Moves.names_eq_empty_iff (hmoves : c.Moves acquired c') (hempty : c.names = ∅) :
    c'.names = ∅ ↔ acquired = none := by
  cases hmoves with
  | keeps hkeeps => exact iff_of_true (Set.subset_eq_empty hkeeps.names_subset hempty) rfl
  | newConnection => exact iff_of_true hempty rfl
  | setWork hwork => exact iff_of_true hempty rfl
  | request hwork hnamed =>
      exact iff_of_false (Set.insert_nonempty _ _).ne_empty (Option.some_ne_none _)

end Custody

namespace ApplicationState

variable {τ : Type} {s t : ApplicationState τ} {client : ConnectionId}

/-! ## The steps of the threads -/

/-- The object that the request a step queues names. -/
def acquired (s : ApplicationState τ) : Action → Option RefCounted
  | .proceed thread _ =>
    match s.work thread with
    | .request change :: _ => change.named
    | _ => none
  | _ => none

theorem named_of_isExternal {work : Work} (hexternal : isExternal work = true) :
    work.named = none := by
  unfold isExternal at hexternal
  split at hexternal
  · rfl
  · rfl
  · rfl
  · rfl
  · rfl
  · cases hexternal

/-- A step that leaves work about one connection to the thread that receives for it. -/
structure Receives (s : ApplicationState τ) (client : ConnectionId) (t : ApplicationState τ) :
    Prop where
  work : ∃ work, (∀ w ∈ work, ∀ o, w.named = some o → o = .connection client) ∧
    t.custody = s.custody.setWork (.receiver client) work

theorem Receives.moves (h : s.Receives client t) (hclient : client ∈ s.mClients) :
    s.custody.Moves none t.custody := by
  obtain ⟨work, hwork, hcustody⟩ := h.work
  rw [hcustody]
  refine .setWork fun w hw o hnamed => ?_
  cases hwork w hw o hnamed
  exact ⟨hclient, client, hclient, rfl⟩

theorem receives_setWork (s : ApplicationState τ) {work : List Work}
    (hwork : ∀ w ∈ work, ∀ o, w.named = some o → o = .connection client) :
    s.Receives client (s.setWork (.receiver client) work) := ⟨work, hwork, rfl⟩

theorem named_singleton {work : Work} (hnamed : work.named = some (.connection client)) :
    ∀ w ∈ [work], ∀ o, w.named = some o → o = .connection client := by
  intro w hw o ho
  cases List.mem_singleton.mp hw
  exact Option.some.inj (ho.symm.trans hnamed)

theorem named_nil : ∀ w ∈ ([] : List Work), ∀ o, w.named = some o → o = .connection client :=
  fun _ hw => by cases hw

theorem named_cons {work : Work} {rest : List Work}
    (hnamed : ∀ o, work.named = some o → o = .connection client)
    (hrest : ∀ w ∈ rest, ∀ o, w.named = some o → o = .connection client) :
    ∀ w ∈ work :: rest, ∀ o, w.named = some o → o = .connection client :=
  List.forall_mem_cons.mpr ⟨hnamed, hrest⟩

theorem receives_withSession (s : ApplicationState τ)
    {f : PersistentClientState → PersistentClientState × List Work}
    (hcount : ∀ state, (f state).1.taskQueueRefCount = state.taskQueueRefCount)
    (hwork : ∀ state, ∀ w ∈ (f state).2, ∀ o, w.named = some o → o = .connection client) :
    s.Receives client (s.withSession client f) := by
  unfold withSession
  split
  · exact receives_setWork s (named_singleton rfl)
  · next id _ =>
      refine ⟨_, hwork (s.sessions id), ?_⟩
      exact congrArg (Custody.setWork · (.receiver client) (f (s.sessions id)).2)
        (custody_updateSession_of (f := fun _ => (f (s.sessions id)).1) (hcount _))

/-- The topics of a packet, and what answers it. -/
theorem named_topics {α : Type} {topics : List α} {work : α → Work} {complete : Bool}
    {packet : EncodedPacket} (hwork : ∀ a, (work a).named = some (.connection client)) :
    ∀ w ∈ topics.map work ++ [endTopics client complete packet],
      ∀ o, w.named = some o → o = .connection client := by
  intro w hw o hnamed
  rcases List.mem_append.mp hw with htopic | hend
  · obtain ⟨a, -, rfl⟩ := List.mem_map.mp htopic
    exact Option.some.inj (hnamed.symm.trans (hwork a))
  · cases List.mem_singleton.mp hend
    unfold endTopics at hnamed
    split at hnamed
    · exact (Option.some.inj hnamed).symm
    · exact (Option.some.inj hnamed).symm

section

variable [Libnioev]

theorem receives_handlePacketReceived (s : ApplicationState τ) (client : ConnectionId)
    (packet : ClientPacket) : s.Receives client (s.handlePacketReceived client packet) := by
  have hreply : ∀ packet o, (Work.reply client packet).named = some o → o = .connection client :=
    fun _ o hnamed => (Option.some.inj hnamed).symm
  have hpublish : ∀ packet, ∀ w ∈ [Work.publish packet], ∀ o, w.named = some o →
      o = .connection client := by
    intro packet w hw o hnamed
    cases List.mem_singleton.mp hw
    cases hnamed
  cases packet with
  | publish packet id =>
      -- One case for each quality of service.
      simp only [handlePacketReceived]
      split
      · exact receives_setWork s (hpublish packet)
      · exact receives_setWork s (named_cons (hreply _) (hpublish packet))
      · refine receives_withSession s (fun _ => rfl) fun state => named_cons (hreply _) ?_
        split
        · exact hpublish packet
        · exact named_nil
  | pubAck id =>
      simp only [handlePacketReceived]
      exact receives_withSession s (fun _ => rfl) fun _ => named_nil
  | pubRel id =>
      simp only [handlePacketReceived]
      exact receives_withSession s (fun _ => rfl) fun _ => named_singleton rfl
  | pubRec id =>
      simp only [handlePacketReceived]
      exact receives_withSession s (fun _ => rfl) fun _ => named_singleton rfl
  | pubComp id =>
      simp only [handlePacketReceived]
      exact receives_withSession s (fun _ => rfl) fun _ => named_nil
  | subscribe id topics complete => exact receives_setWork s (named_topics fun _ => rfl)
  | unsubscribe id topics complete => exact receives_setWork s (named_topics fun _ => rfl)
  | pingReq => exact receives_setWork s (named_singleton rfl)
  | disconnect =>
      refine ⟨[.throws client], named_singleton rfl, ?_⟩
      exact congrArg (Custody.setWork · (.receiver client) [.throws client])
        (custody_updateConnection_of (f := fun conn => { conn with mWill := none }) rfl rfl)

omit [Libnioev] in
theorem custody_handleNewClientConnection (s : ApplicationState τ) (remote : ByteString)
    (now : Nat) :
    (s.handleNewClientConnection remote now).custody =
      s.custody.newConnection s.nextConnection := by
  simp only [handleNewClientConnection, custody, Custody.newConnection, Custody.mk.injEq, and_true]
  refine ⟨refCount_update_connections s _ _, rfl, ?_⟩
  exact funext fun c => Function.apply_update (fun _ => MQTTClientConnection.mLoggedOut) _ _ _ c

variable [SubscriptionTree τ]

theorem moves_proceed (h : s.Tabled) (hcounts : s.custody.Uncounted) {thread : Thread}
    {lockTaken : Bool} {work : Work} {rest : List Work} (hwork : s.work thread = work :: rest)
    (hproceed : s.proceed thread lockTaken work rest = some (.ok t)) :
    s.custody.Moves (s.acquired (.proceed thread lockTaken)) t.custody := by
  have hrest := hcounts.rest (c := s.custody) hwork
  have hmem : work ∈ s.work thread := by
    rw [hwork]
    exact List.mem_cons_self
  have hhead : ∀ o, work.named = some o → s.custody.Holds thread o :=
    hcounts.working thread work hmem
  have hthrows : ∀ client, work.named = some (.connection client) →
      ∀ w ∈ [Work.throws client], ∀ o, w.named = some o → s.custody.Holds thread o := by
    intro client hnamed w hw o ho
    cases List.mem_singleton.mp hw
    cases ho
    exact hhead _ hnamed
  -- A connection's session is stored, so that a request may name it.
  have hattached : ∀ client id, work.named = some (.connection client) →
      (s.connections client).mPersistentClientState = some id →
        s.custody.Holds thread (.session id) := by
    intro client id hnamed hattached
    have hstored := ((sessionTable_of_registered h.registered h.present).attached_iff client id).mp
      hattached
    exact ⟨.inl hstored.1, (hhead _ hnamed).receives⟩
  simp only [acquired, hwork]
  cases proceeds_of_proceed hproceed with
  | subscribeUnattached hnone => exact .setWork (hthrows _ rfl)
  | @subscribe client topic qos id hsession =>
      refine .setWork (List.forall_mem_cons.mpr ⟨?_, hrest⟩)
      rintro o ⟨⟩
      exact hattached client id rfl hsession
  | unsubscribeUnattached hnone => exact .setWork (hthrows _ rfl)
  | @unsubscribe client topic id hsession =>
      refine .setWork (List.forall_mem_cons.mpr ⟨?_, hrest⟩)
      rintro o ⟨⟩
      exact hattached client id rfl hsession
  | @retain packet =>
      have hretained : ((s.setWork thread rest).retain packet).custody =
          s.custody.setWork thread rest := custody_retain _ packet
      exact hretained ▸ .setWork hrest
  | @request change =>
      show s.custody.Moves change.named _
      cases hnamed : change.named with
      | none =>
          rw [custody_requestChange_of_unnamed hnamed]
          exact .setWork hrest
      | some o =>
          rw [custody_requestChange hnamed]
          exact .request (c := s.custody) hwork hnamed
  | publish hok =>
      rw [custody_publishNoLockNoRetain hok]
      refine .setWork ?_
      split
      · exact List.forall_mem_cons.mpr ⟨fun _ heq => (by cases heq), hrest⟩
      · exact hrest
  | reply =>
      rw [custody_sendData]
      exact .setWork hrest
  | throws =>
      refine .setWork fun w hw o ho => ?_
      cases List.mem_singleton.mp hw
      exact hhead o ho

/-- The execution of the request at the head of a queue. -/
theorem keeps_execute (hcounts : s.custody.Uncounted) {request : Request} {queue : List Request}
    (hqueue : s.mQueue = request :: queue) {thread : Thread} {generatedId : ByteString}
    (hok : { s with mQueue := queue }.executeChangeRequest thread generatedId request.change =
      .ok t) : s.custody.Keeps t.custody := by
  rw [executeChangeRequest_eq] at hok
  have hsubset : namesOf queue ∪ namesOf s.mQueueInternal ⊆ s.names := by
    unfold names
    rw [hqueue]
    exact Set.union_subset_union_left _ namesOf_subset_cons
  have hfresh : s.refCount (.session s.nextSession) = 0 := hcounts.counts (.session s.nextSession)
  have hvisited := keeps_visit (s := { s with mQueue := queue }) hfresh hok
  exact (Custody.Keeps.setNames hsubset).trans hvisited

theorem keeps_executeInternal (hcounts : s.custody.Uncounted) {request : Request}
    {queue : List Request} (hqueue : s.mQueueInternal = request :: queue) {thread : Thread}
    {generatedId : ByteString}
    (hok : { s with mQueueInternal := queue }.executeChangeRequest thread generatedId
      request.change = .ok t) : s.custody.Keeps t.custody := by
  rw [executeChangeRequest_eq] at hok
  have hsubset : namesOf s.mQueue ∪ namesOf queue ⊆ s.names := by
    unfold names
    rw [hqueue]
    exact Set.union_subset_union_right _ namesOf_subset_cons
  have hfresh : s.refCount (.session s.nextSession) = 0 := hcounts.counts (.session s.nextSession)
  have hvisited := keeps_visit (s := { s with mQueueInternal := queue }) hfresh hok
  exact (Custody.Keeps.setNames hsubset).trans hvisited

/-- What each step does to custody. -/
theorem moves_step {action : Action} (h : s.Tabled) (hcounts : s.custody.Uncounted)
    (hcleanup : action ≠ .cleanup) (hstep : s.step action = some (.ok t)) :
    s.custody.Moves (s.acquired action) t.custody := by
  have hsteps := steps_of_step hstep
  clear hstep
  cases hsteps with
  | @newConnection remote now =>
      rw [custody_handleNewClientConnection]
      exact .newConnection
  | receiveData hclient => exact .keeps (.of_eq (custody_updateConnection_of rfl rfl))
  | @connect client packet hclient hidle hstate =>
      have hupdated : (s.updateConnection client fun conn => { conn with
          mMQTTVersion := packet.version
          mKeepAliveIntervalSeconds := packet.keepAlive
          mWill := packet.will
          mState := .connecting }).custody = s.custody := custody_updateConnection_of rfl rfl
      refine Receives.moves ⟨[.request (.loginClient client packet.clientId packet.cleanSession)],
        named_singleton rfl, ?_⟩ hclient
      exact congrArg (Custody.setWork · (.receiver client) _) hupdated
  | rejectVersion hclient hidle hstate =>
      refine .keeps (.of_eq ((custody_sendData _ _ _).trans ?_))
      exact custody_updateConnection_of rfl rfl
  | @packet client packet hclient hidle hstate =>
      exact (receives_handlePacketReceived s client packet).moves hclient
  | receiveError hclient hidle =>
      exact Receives.moves (receives_setWork s (named_singleton rfl)) hclient
  | @start id work hexternal hidle =>
      refine .setWork fun w hw o hnamed => ?_
      cases List.mem_singleton.mp hw
      rw [named_of_isExternal hexternal] at hnamed
      cases hnamed
  | proceed hwork hproceed => exact moves_proceed h hcounts hwork hproceed
  | execute hqueue hgenerated hok => exact .keeps (keeps_execute hcounts hqueue hok)
  | executeInternal hqueue hok => exact .keeps (keeps_executeInternal hcounts hqueue hok)
  | sendError hclient => exact .keeps (.of_eq (custody_updateConnection_of rfl rfl))
  | logoutSendError hclient hok => exact .keeps (keeps_logoutClient hok)
  | timeout hclient htimedOut hok => exact .keeps (keeps_logoutClient hok)
  | cleanup hidle => exact absurd rfl hcleanup

theorem cleanup_step (hstep : s.step .cleanup = some (.ok t)) :
    (∀ client ∈ s.mClients, s.work (.receiver client) = []) ∧ t = s.eraseDisconnected := by
  cases steps_of_step hstep with
  | cleanup hidle => exact ⟨hidle, rfl⟩

/-! ## Runs -/

/-- The tables and custody together, as the steps keep them. -/
structure Guarded (s : ApplicationState τ) : Prop where
  tabled : s.Tabled
  uncounted : s.custody.Uncounted

omit [Libnioev] in
theorem guarded_initial (retained : AList fun _ : ByteString => RetainedMessage) :
    (initial retained : ApplicationState τ).Guarded where
  tabled := tabled_initial retained
  uncounted :=
    { counts := fun o => by cases o <;> rfl
      working := fun _ _ hwork => by cases hwork }

theorem Guarded.step {action : Action} (h : s.Guarded) (hstep : s.step action = some (.ok t)) :
    t.Guarded := by
  refine ⟨h.tabled.step hstep, ?_⟩
  by_cases hcleanup : action = .cleanup
  · subst hcleanup
    obtain ⟨hidle, rfl⟩ := cleanup_step hstep
    exact h.uncounted.eraseDisconnected hidle
  · exact h.uncounted.moves (moves_step h.tabled h.uncounted hcleanup hstep)

/-- The requests in both queues. -/
def requests (s : ApplicationState τ) : List Request := s.mQueue ++ s.mQueueInternal

/-- What queued requests name has not been freed. -/
structure NamedKept (s : ApplicationState τ) : Prop where
  connectionKept : ∀ request ∈ s.requests, ∀ client,
    request.change.named = some (.connection client) → client ∈ s.mClients
  sessionKept : ∀ request ∈ s.requests, ∀ id, request.change.named = some (.session id) →
    (∃ clientId, s.StoredUnder clientId id) ∨ id ∈ s.mDeletedPersistentClientStates

/-- Nor are the counts others than those of the queues. -/
structure NothingDangles (s : ApplicationState τ) : Prop extends s.NamedKept where
  connectionCount : ∀ client, (s.connections client).taskQueueRefCount =
    s.requests.countP fun request => request.change.named = some (.connection client)
  sessionCount : ∀ id, (s.sessions id).taskQueueRefCount =
    s.requests.countP fun request => request.change.named = some (.session id)

/-- The step queues no request that names a connection or a session. -/
def NamesNothing (s : ApplicationState τ) (action : Action) : Prop := s.acquired action = none

/-- The connection is not logged out, or the session is in the table. -/
def Survives (s : ApplicationState τ) : RefCounted → Prop
  | .connection client => (s.connections client).mLoggedOut = false
  | .session id => s.view.Kept id

/-- A cleanup finds nothing that a queued request names logged out or deleted. -/
def SparesNamed (s : ApplicationState τ) (action : Action) : Prop :=
  action = .cleanup → ∀ request ∈ s.requests, ∀ o ∈ request.change.named, s.Survives o

omit [Libnioev] [SubscriptionTree τ] in
theorem mem_names_iff {o : RefCounted} :
    o ∈ s.names ↔ ∃ request ∈ s.requests, request.change.named = some o := by
  unfold names requests
  rw [← namesOf_append]
  exact Iff.rfl

omit [Libnioev] [SubscriptionTree τ] in
theorem namedKept_iff : s.NamedKept ↔ s.custody.Named := by
  constructor
  · intro h o ho
    obtain ⟨request, hrequest, hnamed⟩ := mem_names_iff.mp ho
    cases o with
    | connection client => exact h.connectionKept request hrequest client hnamed
    | session id => exact h.sessionKept request hrequest id hnamed
  · intro h
    have howned : ∀ request ∈ s.requests, ∀ o, request.change.named = some o → s.custody.Owns o :=
      fun request hrequest o hnamed => h o (mem_names_iff.mpr ⟨request, hrequest, hnamed⟩)
    exact ⟨fun request hrequest client => howned request hrequest (.connection client),
      fun request hrequest id => howned request hrequest (.session id)⟩

omit [Libnioev] [SubscriptionTree τ] in
/-- No request being counted, the counts are right only where nothing is named. -/
theorem nothingDangles_iff (h : s.custody.Uncounted) : s.NothingDangles ↔ s.names = ∅ := by
  constructor
  · intro hdangles
    refine Set.eq_empty_iff_forall_notMem.mpr fun o ho => ?_
    obtain ⟨request, hrequest, hnamed⟩ := mem_names_iff.mp ho
    have hpos : 0 < s.requests.countP fun request => request.change.named = some o :=
      List.countP_pos_iff.mpr ⟨request, hrequest, decide_eq_true hnamed⟩
    have hcount : s.refCount o = s.requests.countP fun request => request.change.named = some o := by
      cases o with
      | connection client => exact hdangles.connectionCount client
      | session id => exact hdangles.sessionCount id
    rw [← hcount, show s.refCount o = 0 from h.counts o] at hpos
    exact Nat.lt_irrefl 0 hpos
  · intro hempty
    have hnone : ∀ o, ∀ request ∈ s.requests, request.change.named ≠ some o := by
      intro o request hrequest hnamed
      have ho := mem_names_iff.mpr ⟨request, hrequest, hnamed⟩
      rw [hempty] at ho
      exact ho
    have hcount : ∀ o, s.refCount o =
        s.requests.countP fun request => request.change.named = some o := by
      intro o
      refine (h.counts o).trans (List.countP_eq_zero.mpr fun request hrequest hnamed => ?_).symm
      exact hnone o request hrequest (of_decide_eq_true hnamed)
    exact
      { connectionKept := fun request hrequest client hnamed => absurd hnamed (hnone _ request hrequest)
        sessionKept := fun request hrequest id hnamed => absurd hnamed (hnone _ request hrequest)
        connectionCount := fun client => hcount (.connection client)
        sessionCount := fun id => hcount (.session id) }

omit [Libnioev] [SubscriptionTree τ] in
theorem sparesNamed_cleanup_iff :
    s.SparesNamed .cleanup ↔ ∀ o ∈ s.custody.names, s.custody.Survives o := by
  have hsurvives : ∀ o, s.Survives o ↔ s.custody.Survives o := by
    intro o
    cases o with
    | connection client => exact Iff.rfl
    | session id => exact Iff.rfl
  constructor
  · intro h o ho
    obtain ⟨request, hrequest, hnamed⟩ := mem_names_iff.mp ho
    exact (hsurvives o).mp (h rfl request hrequest o hnamed)
  · intro h _ request hrequest o hnamed
    exact (hsurvives o).mpr (h o (mem_names_iff.mpr ⟨request, hrequest, hnamed⟩))

theorem nothingDangles_step_iff {action : Action} (h : s.Guarded) (hdangles : s.NothingDangles)
    (hstep : s.step action = some (.ok t)) : t.NothingDangles ↔ s.NamesNothing action := by
  have hempty := (nothingDangles_iff h.uncounted).mp hdangles
  rw [nothingDangles_iff (h.step hstep).uncounted]
  by_cases hcleanup : action = .cleanup
  · subst hcleanup
    obtain ⟨-, rfl⟩ := cleanup_step hstep
    exact iff_of_true hempty rfl
  · exact (moves_step h.tabled h.uncounted hcleanup hstep).names_eq_empty_iff hempty

theorem namedKept_step_iff {action : Action} (h : s.Guarded) (hkept : s.NamedKept)
    (hstep : s.step action = some (.ok t)) : t.NamedKept ↔ s.SparesNamed action := by
  rw [namedKept_iff] at hkept ⊢
  by_cases hcleanup : action = .cleanup
  · subst hcleanup
    obtain ⟨-, rfl⟩ := cleanup_step hstep
    rw [sparesNamed_cleanup_iff]
    exact hkept.eraseDisconnected_iff h.uncounted
  · have hmoves := moves_step h.tabled h.uncounted hcleanup hstep
    exact iff_of_true (hkept.moves h.uncounted hmoves) fun heq => absurd heq hcleanup

/-- In every run, the counts are those of the queues as long as no request that names a
connection or a session is queued, and no longer; what queued requests name has not been freed
exactly if every cleanup finds it neither logged out nor deleted. -/
theorem nothingDangles_iff_namesNothing {retained : AList fun _ : ByteString => RetainedMessage}
    {run : List (Action × ApplicationState τ)}
    (hrun : Runs.IsRun (Runs.StepOf stepOk) (initial retained) run) :
    (Runs.AllStates NothingDangles run ↔ Runs.AllSteps NamesNothing (initial retained) run) ∧
      (Runs.AllStates NamedKept run ↔ Runs.AllSteps SparesNamed (initial retained) run) := by
  have hguarded : ∀ (s : ApplicationState τ) (action : Action) (t : ApplicationState τ),
      s.Guarded → s.stepOk action = some t → t.Guarded :=
    fun _ _ _ h hstep => h.step (step_of_stepOk hstep)
  have hempty : (initial retained : ApplicationState τ).names = ∅ := by
    refine Set.eq_empty_iff_forall_notMem.mpr fun o ho => ?_
    obtain ⟨request, hrequest, -⟩ := mem_names_iff.mp ho
    cases hrequest
  constructor
  · refine hrun.allStates_iff_allSteps (I := Guarded)
      (fun _ _ _ h _ _ hstep => hguarded _ _ _ h hstep)
      (fun _ _ _ h hdangles hstep => nothingDangles_step_iff h hdangles (step_of_stepOk hstep))
      (guarded_initial retained) ?_
    exact (nothingDangles_iff (guarded_initial retained).uncounted).mpr hempty
  · refine hrun.allStates_iff_allSteps (I := Guarded)
      (fun _ _ _ h _ _ hstep => hguarded _ _ _ h hstep)
      (fun _ _ _ h hkept hstep => namedKept_step_iff h hkept (step_of_stepOk hstep))
      (guarded_initial retained) ?_
    rw [namedKept_iff]
    intro o ho
    rw [show (initial retained : ApplicationState τ).custody.names = ∅ from hempty] at ho
    cases ho

end

instance (s : ApplicationState τ) (action : Action) : Decidable (s.NamesNothing action) :=
  inferInstanceAs (Decidable (_ = _))

instance decidableSurvives (s : ApplicationState τ) : (o : RefCounted) → Decidable (s.Survives o)
  | .connection client => inferInstanceAs (Decidable ((s.connections client).mLoggedOut = false))
  | .session id => inferInstanceAs (Decidable (s.view.Kept id))

instance decidableSparesNamed (s : ApplicationState τ) (action : Action) :
    Decidable (s.SparesNamed action) :=
  match action with
  | .cleanup =>
    decidable_of_iff (∀ request ∈ s.requests, ∀ o ∈ request.change.named, s.Survives o)
      (imp_iff_right rfl).symm
  | .newConnection _ _ | .receiveData _ _ | .connect _ _ | .rejectVersion _ | .packet _ _
  | .receiveError _ | .start _ _ | .proceed _ _ | .execute _ | .executeInternal _ | .sendError _
  | .logoutSendError _ | .timeout _ _ => .isTrue fun heq => by cases heq

/-- A client asks to be logged in. Before it is, it times out. -/
def timeOutBeforeLogin : List Action :=
  Action.requestLogin 0 [0x61] .yes (fun _ => rfl) ++ [.timeout 0 200000000000, .cleanup]

theorem not_nothingDangles_timeOutBeforeLogin :
    ∃ run, Runs.IsRun (Runs.StepOf (@stepOk SubscriptionList .standard _)) (initial ∅) run ∧
      ¬ Runs.AllStates NothingDangles run ∧ ¬ Runs.AllStates NamedKept run := by
  have hfreed : ¬ Runs.AllStates (fun s : ApplicationState SubscriptionList =>
      ∀ request ∈ s.requests, request.change.named = some (.connection 0) → 0 ∈ s.mClients)
      (Runs.runOf (@stepOk SubscriptionList .standard _) (initial ∅) timeOutBeforeLogin) := by
    decide +kernel
  refine ⟨_, Runs.isRun_runOf (@stepOk SubscriptionList .standard _) _ timeOutBeforeLogin, ?_, ?_⟩
  · exact fun h => hfreed fun x hx request hrequest => (h x hx).connectionKept request hrequest 0
  · exact fun h => hfreed fun x hx request hrequest => (h x hx).connectionKept request hrequest 0

/-- A client subscribes and times out, and a cleanup comes when both have been executed. -/
def subscribeAndTimeOut : List Action :=
  Action.requestLogin 0 [0x61] .yes (fun _ => rfl) ++ [.execute []] ++
    Action.requestSubscribe 0 [0x74] .qos1 ++ [.timeout 0 200000000000, .execute [], .cleanup]

theorem namedKept_subscribeAndTimeOut :
    (Runs.runOf (@stepOk SubscriptionList .standard _) (initial ∅) subscribeAndTimeOut).length = 11 ∧
      Runs.AllStates NamedKept
        (Runs.runOf (@stepOk SubscriptionList .standard _) (initial ∅) subscribeAndTimeOut) :=
  ⟨by decide +kernel, (@nothingDangles_iff_namesNothing SubscriptionList .standard _ _ _
    (Runs.isRun_runOf (@stepOk SubscriptionList .standard _) _ _)).2.mpr (by decide +kernel)⟩

end ApplicationState

end NioevMqtt
