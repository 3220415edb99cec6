-- SUMMARY: What a step of the broker does to the work of the threads: each has its own, and the requests it makes are all that is queued.
import NioevMqtt.Broker.Transitions

/-!
# The work of the threads

A thread does its work piece by piece. What it has left, and the request it makes, is
read off the piece that is next; no other step touches it, unless it has nothing to do.
-/

namespace NioevMqtt

namespace View

variable {τ : Type} [SubscriptionTree τ] {v v' : View τ} {client : ConnectionId}

/-- What a logout leaves alone. -/
theorem frame_logsOut (hout : v.LogsOut client v') : v'.mQueue = v.mQueue ∧ v'.work = v.work := by
  cases hout with
  | nothing => exact ⟨rfl, rfl⟩
  | detaches => exact ⟨rfl, rfl⟩
  | closes => exact ⟨rfl, rfl⟩

theorem frame_executes {change : ChangeRequest} (hexecutes : v.Executes change v') :
    v'.mQueue = v.mQueue ∧ v'.work = v.work := by
  cases hexecutes with
  | loginClient hin =>
      cases hin with
      | nothing => exact ⟨rfl, rfl⟩
      | takesOver => exact ⟨rfl, rfl⟩
      | opens => exact ⟨rfl, rfl⟩
  | logoutClient hout => exact frame_logsOut hout
  | _ => exact ⟨rfl, rfl⟩

end View

namespace ApplicationState

variable {τ : Type} {s t : ApplicationState τ} {action : Action} {c : ConnectionId}

/-- The request that a step makes. -/
def made (s : ApplicationState τ) : Action → Option Request
  | .proceed thread _ =>
    match s.work thread with
    | .request change :: _ => some ⟨change, thread⟩
    | _ => none
  | _ => none

section

variable [Libnioev] [SubscriptionTree τ]

/-- What a thread has left to do after a piece of work. -/
def workAfter (s : ApplicationState τ) : Work → List Work → List Work
  | .subscribe client topic qos, rest =>
    match (s.connections client).mPersistentClientState with
    | none => [.throws client]
    | some id => .request (.subscribe (.session id) topic qos .normal) :: rest
  | .unsubscribe client topic, rest =>
    match (s.connections client).mPersistentClientState with
    | none => [.throws client]
    | some id => .request (.unsubscribe (.session id) topic) :: rest
  | .publish packet, rest =>
    if packet.retain = .yes then .request (.retain packet) :: rest else rest
  | .request _, rest => rest
  | .reply _ _, rest => rest
  | .throws client, _ => [.request (.logoutClient client)]

theorem view_proceed {thread : Thread} {lockTaken : Bool} {work : Work} {rest : List Work}
    (hproceed : s.proceed thread lockTaken work rest = some (.ok t))
    (hrequest : ∀ change, work ≠ .request change) :
    t.view = s.view.setWork thread (s.workAfter work rest) := by
  cases proceeds_of_proceed hproceed with
  | subscribeUnattached hnone =>
      simp only [workAfter, hnone]
      rfl
  | subscribe hattached =>
      simp only [workAfter, hattached]
      rfl
  | unsubscribeUnattached hnone =>
      simp only [workAfter, hnone]
      rfl
  | unsubscribe hattached =>
      simp only [workAfter, hattached]
      rfl
  | retain => exact absurd rfl (hrequest _)
  | request => exact absurd rfl (hrequest _)
  | publish hok => exact (publishNoLockNoRetain_publishes hok).view_eq
  | reply => exact view_sendData _ _ _
  | throws => rfl

theorem view_proceed_request {thread : Thread} {lockTaken : Bool} {change : ChangeRequest}
    {rest : List Work} (hproceed : s.proceed thread lockTaken (.request change) rest = some (.ok t)) :
    t.view = (s.view.setWork thread rest).setQueue (s.mQueue ++ [⟨change, thread⟩]) ∨
      t.view = s.view.setWork thread rest ∧ ∃ packet, change = .retain packet := by
  cases proceeds_of_proceed hproceed with
  | @retain packet => exact .inr ⟨(retain_reaches _ packet).view_eq, packet, rfl⟩
  | request => exact .inl (view_requestChange s thread change rest)

/-- Nothing is sent in this work. -/
def NoReply (work : List Work) : Prop := ∀ client packet, Work.reply client packet ∉ work

omit [Libnioev] [SubscriptionTree τ] in
theorem noReply_singleton {work : Work} (h : ∀ client packet, work ≠ .reply client packet) :
    NoReply [work] :=
  fun client packet hmem => h client packet (List.mem_singleton.mp hmem).symm

omit [Libnioev] [SubscriptionTree τ] in
/-- A thread that has nothing to do gets something that sends nothing. -/
theorem work_setWork {thread : Thread} {work : List Work} (hidle : s.work thread = [])
    (hwork : NoReply work) (thread' : Thread) :
    (s.setWork thread work).work thread' = s.work thread' ∨
      s.work thread' = [] ∧ NoReply ((s.setWork thread work).work thread') := by
  by_cases hthread : thread' = thread
  · subst hthread
    have hset : (s.setWork thread' work).work thread' = work := Function.update_self _ _ _
    rw [hset]
    exact .inr ⟨hidle, hwork⟩
  · exact .inl (Function.update_of_ne hthread _ _)

/-- What is the work of no thread and of no client's packet queues nothing. -/
theorem frame_step (h : s.Linked) (hstep : s.step action = some (.ok t))
    (hpacket : ∀ client packet, action ≠ .packet client packet)
    (hproceed : ∀ thread lockTaken, action ≠ .proceed thread lockTaken)
    (hexecute : ∀ randomChars, action ≠ .execute randomChars) :
    t.mQueue = s.mQueue ∧
      ∀ thread, t.work thread = s.work thread ∨ s.work thread = [] ∧ NoReply (t.work thread) := by
  have hview : ∀ {v : View τ}, t.view = v → v.mQueue = s.mQueue ∧ v.work = s.work →
      t.mQueue = s.mQueue ∧
        ∀ thread, t.work thread = s.work thread ∨ s.work thread = [] ∧ NoReply (t.work thread) := by
    rintro _ rfl ⟨hqueue, hwork⟩
    exact ⟨hqueue, fun thread => .inl (congrFun hwork thread)⟩
  have hsteps := steps_of_step hstep
  clear hstep
  cases hsteps with
  | connect hclient hidle hstate =>
      exact ⟨rfl, work_setWork hidle (noReply_singleton fun _ _ heq => by cases heq)⟩
  | receiveError hclient hidle =>
      exact ⟨rfl, work_setWork hidle (noReply_singleton fun _ _ heq => by cases heq)⟩
  | start hexternal hidle =>
      refine ⟨rfl, work_setWork hidle (noReply_singleton fun _ _ heq => ?_)⟩
      rw [heq] at hexternal
      cases hexternal
  | packet => exact absurd rfl (hpacket _ _)
  | proceed => exact absurd rfl (hproceed _ _)
  | execute => exact absurd rfl (hexecute _)
  | executeInternal hqueue hok =>
      exact hview (executeInternal_quiet h hqueue hok).view_eq ⟨rfl, rfl⟩
  | logoutSendError hclient hok =>
      obtain ⟨v, hout, hreaches⟩ := logoutClient_reaches h.view.toAttached hok
      exact hview hreaches.view_eq (View.frame_logsOut hout)
  | timeout hclient htimedOut hok =>
      obtain ⟨v, hout, hreaches⟩ := logoutClient_reaches h.view.toAttached hok
      exact hview hreaches.view_eq (View.frame_logsOut hout)
  | _ => exact ⟨rfl, fun _ => .inl rfl⟩

theorem work_proceed {thread : Thread} {lockTaken : Bool} {work : Work} {rest : List Work}
    (hproceed : s.proceed thread lockTaken work rest = some (.ok t)) :
    t.view.work = (s.view.setWork thread (s.workAfter work rest)).work := by
  by_cases hrequest : ∃ change, work = .request change
  · obtain ⟨change, rfl⟩ := hrequest
    rcases view_proceed_request hproceed with hview | ⟨hview, -⟩
    · rw [hview]
      rfl
    · rw [hview]
      rfl
  · exact congrArg View.work (view_proceed hproceed fun change heq => hrequest ⟨change, heq⟩)

/-- A thread has its work from its own steps only. -/
theorem work_step (h : s.Linked) (hstep : s.step action = some (.ok t))
    (hpacket : ∀ packet, action ≠ .packet c packet)
    (hproceed : ∀ lockTaken, action ≠ .proceed (.receiver c) lockTaken) :
    t.work (.receiver c) = s.work (.receiver c) ∨
      s.work (.receiver c) = [] ∧ NoReply (t.work (.receiver c)) := by
  have hsteps := steps_of_step hstep
  cases hsteps with
  | @packet client packet =>
      have hne : Thread.receiver c ≠ .receiver client := by
        rintro ⟨⟩
        exact hpacket packet rfl
      obtain ⟨work, -, hview⟩ := (leavesWork_handlePacketReceived s client packet).noLogin
      exact .inl ((congrArg (·.work (.receiver c)) hview).trans (View.setWork_work_of_ne _ hne work))
  | @proceed thread lockTaken _ _ _ hwork hok =>
      have hne : Thread.receiver c ≠ thread := by
        rintro rfl
        exact hproceed lockTaken rfl
      exact .inl ((congrFun (work_proceed hok) _).trans (View.setWork_work_of_ne _ hne _))
  | @execute randomChars =>
      generalize haction : Action.execute randomChars = action at hstep
      cases transition_of_step h hstep with
      | quiet hother => exact absurd haction.symm (hother randomChars)
      | logsOut hother => exact absurd haction.symm (hother randomChars)
      | executes hqueue hexecutes hreaches =>
          have hwork := (congrArg View.work hreaches.view_eq).trans (View.frame_executes hexecutes).2
          exact .inl (congrFun hwork (.receiver c))
  | _ =>
      exact (frame_step h hstep (fun _ _ heq => by cases heq) (fun _ _ heq => by cases heq)
        fun _ heq => by cases heq).2 _

end

end ApplicationState

end NioevMqtt
