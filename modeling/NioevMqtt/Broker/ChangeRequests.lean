-- SUMMARY: Change requests between the threads: the lock, its recorded holder, the two queues and the worker thread that drains them, with what every step does to the requests.
import NioevMqtt.Broker.ApplicationState
import NioevMqtt.Library.Runs

/-!
# Change requests between the threads

`requestChange` and `workerThreadFunc`, from one access to the lock or to a queue
to the next. What a request is, and what its execution does, are parameters.
-/

namespace NioevMqtt

/-- `RequestChangeMode`. -/
inductive RequestChangeMode where
  | async
  | sync
  | trySyncThenAsync
deriving DecidableEq, Repr

/-- A change request with the thread that made it, and how many were made before. -/
structure Ticket (ρ : Type) where
  number : Nat
  thread : Thread
  change : ρ
deriving DecidableEq, Repr

/-- A call of `requestChange` that has not yet executed its request or queued it. -/
structure PendingCall (ρ : Type) where
  number : Nat
  change : ρ
  mode : RequestChangeMode
deriving DecidableEq, Repr

def PendingCall.ticket {ρ : Type} (call : PendingCall ρ) (thread : Thread) : Ticket ρ :=
  ⟨call.number, thread, call.change⟩

/-- Where the requests are. Those made and those executed are remembered here only. -/
structure Requests (ρ : Type) where
  calls : Thread → Option (PendingCall ρ) := fun _ => none
  mQueue : List (Ticket ρ) := []
  mQueueInternal : List (Ticket ρ) := []
  made : List (Ticket ρ) := []
  executed : List (Ticket ρ) := []

structure RequestQueues (ρ σ : Type) extends Requests ρ where
  /-- What the requests change. -/
  state : σ
  /-- The thread that has the lock for itself. -/
  mMutex : Option Thread := none
  mCurrentRWHolderOfMMutex : Option Thread := none
  /-- The worker thread is in `processInternalQueue`. -/
  draining : Bool := false

namespace Requests

variable {ρ : Type}

/-! ## What happens to a request -/

def call (r : Requests ρ) (thread : Thread) (change : ρ) (mode : RequestChangeMode) : Requests ρ :=
  { r with
    calls := Function.update r.calls thread (some ⟨r.made.length, change, mode⟩)
    made := r.made ++ [⟨r.made.length, thread, change⟩] }

def endCall (r : Requests ρ) (thread : Thread) : Requests ρ :=
  { r with calls := Function.update r.calls thread none }

def push (r : Requests ρ) (ticket : Ticket ρ) : Requests ρ :=
  { r with mQueue := r.mQueue ++ [ticket] }

def pushInternal (r : Requests ρ) (ticket : Ticket ρ) : Requests ρ :=
  { r with mQueueInternal := r.mQueueInternal ++ [ticket] }

def execute (r : Requests ρ) (ticket : Ticket ρ) : Requests ρ :=
  { r with executed := r.executed ++ [ticket] }

end Requests

namespace RequestQueues

variable {ρ σ : Type}

/-- The constructor of `UniqueLockWithAtomicTidUpdate`. -/
def lock (q : RequestQueues ρ σ) (thread : Thread) : RequestQueues ρ σ :=
  { q with mMutex := some thread, mCurrentRWHolderOfMMutex := some thread }

/-- Its destructor. -/
def unlock (q : RequestQueues ρ σ) : RequestQueues ρ σ :=
  { q with mMutex := none, mCurrentRWHolderOfMMutex := none }

/-- The end of `requestChange` for a request that is not executed at once. -/
def enqueue (q : RequestQueues ρ σ) (thread : Thread) (ticket : Ticket ρ) : RequestQueues ρ σ :=
  if q.mCurrentRWHolderOfMMutex = some thread then
    { q with toRequests := q.toRequests.pushInternal ticket }
  else { q with toRequests := q.toRequests.push ticket }

def executeChangeRequest (visit : σ → ρ → σ) (q : RequestQueues ρ σ) (ticket : Ticket ρ) :
    RequestQueues ρ σ :=
  { q with toRequests := q.toRequests.execute ticket, state := visit q.state ticket.change }

inductive Action (ρ : Type) where
  | lock (thread : Thread)
  | unlock (thread : Thread)
  /-- The worker thread and the timers' reset the holder once more after they have
  given up the lock, when another may have it. -/
  | resetHolder
  | call (thread : Thread) (change : ρ) (mode : RequestChangeMode)
  | enqueue (thread : Thread)
  | executeNow (thread : Thread)
  | execute
  /-- No request was in `mQueue`. -/
  | processInternalQueue
  | executeInternal
  | drained

/-- An attempt to take the lock may fail whoever has it: readers take it as well. A
thread that has it can make requests of its own, in the middle of a request too. -/
def step (visit : σ → ρ → σ) (q : RequestQueues ρ σ) : Action ρ → Option (RequestQueues ρ σ)
  | .lock thread =>
    if q.mMutex = none ∧ q.calls thread = none then some (q.lock thread) else none
  | .unlock thread =>
    if q.mMutex = some thread ∧ q.calls thread = none ∧
        (thread = .worker → q.draining = false ∧ q.mQueue = []) then
      some q.unlock
    else none
  | .resetHolder => some { q with mCurrentRWHolderOfMMutex := none }
  | .call thread change mode =>
    if q.calls thread = none then some { q with toRequests := q.toRequests.call thread change mode }
    else none
  | .enqueue thread =>
    match q.calls thread with
    | none => none
    | some call =>
      if call.mode ≠ .sync then
        some (RequestQueues.enqueue { q with toRequests := q.toRequests.endCall thread } thread
          (call.ticket thread))
      else none
  | .executeNow thread =>
    match q.calls thread with
    | none => none
    | some call =>
      if call.mode ≠ .async ∧ q.mMutex = none then
        some (executeChangeRequest visit
          (RequestQueues.lock { q with toRequests := q.toRequests.endCall thread } thread)
          (call.ticket thread))
      else none
  | .execute =>
    match q.mQueue with
    | [] => none
    | ticket :: mQueue =>
      if q.mMutex = some .worker ∧ q.draining = false then
        some { executeChangeRequest visit { q with mQueue := mQueue } ticket with draining := true }
      else none
  | .processInternalQueue =>
    if q.mMutex = some .worker ∧ q.draining = false ∧ q.mQueue = [] then
      some { q with draining := true }
    else none
  | .executeInternal =>
    match q.mQueueInternal with
    | [] => none
    | ticket :: mQueueInternal =>
      if q.mMutex = some .worker ∧ q.draining = true then
        some (executeChangeRequest visit { q with mQueueInternal := mQueueInternal } ticket)
      else none
  | .drained =>
    if q.mMutex = some .worker ∧ q.draining = true ∧ q.mQueueInternal = [] then
      some { q with draining := false }
    else none

def initial (state : σ) : RequestQueues ρ σ where
  state := state

/-! ## Steps in a row -/

namespace Action

/-- A request that waits in one of the queues. -/
def requestAsync (thread : Thread) (change : ρ) (mode : RequestChangeMode) : List (Action ρ) :=
  [.call thread change mode, .enqueue thread]

/-- A request that is executed by the thread that makes it. -/
def requestSync (thread : Thread) (change : ρ) (mode : RequestChangeMode) : List (Action ρ) :=
  [.call thread change mode, .executeNow thread, .unlock thread]

/-- `addScript`. -/
def addScript (thread : Thread) (change : ρ) : List (Action ρ) :=
  [.lock thread] ++ requestAsync thread change .async ++ [.unlock thread]

end Action

/-! ## What a step does to the requests -/

variable {visit : σ → ρ → σ} {q q' : RequestQueues ρ σ} {action : Action ρ}

/-- The cases of a step, as far as the requests are concerned. -/
inductive Effect (q : RequestQueues ρ σ) : Action ρ → Requests ρ → Prop
  | same {a} : Effect q a q.toRequests
  | call {thread change mode} (hidle : q.calls thread = none) :
      Effect q (.call thread change mode) (q.toRequests.call thread change mode)
  | pushInternal {thread call} (hcall : q.calls thread = some call)
      (hholder : q.mCurrentRWHolderOfMMutex = some thread) :
      Effect q (.enqueue thread) ((q.toRequests.endCall thread).pushInternal (call.ticket thread))
  | push {thread call} (hcall : q.calls thread = some call)
      (hholder : q.mCurrentRWHolderOfMMutex ≠ some thread) :
      Effect q (.enqueue thread) ((q.toRequests.endCall thread).push (call.ticket thread))
  | executeNow {thread call} (hcall : q.calls thread = some call) :
      Effect q (.executeNow thread) ((q.toRequests.endCall thread).execute (call.ticket thread))
  | execute {ticket mQueue} (hqueue : q.mQueue = ticket :: mQueue) :
      Effect q .execute (Requests.execute { q.toRequests with mQueue := mQueue } ticket)
  | executeInternal {ticket mQueueInternal} (hqueue : q.mQueueInternal = ticket :: mQueueInternal) :
      Effect q .executeInternal
        (Requests.execute { q.toRequests with mQueueInternal := mQueueInternal } ticket)

/-- What is executed is visited. -/
def Visits (visit : σ → ρ → σ) (q q' : RequestQueues ρ σ) : Prop :=
  ∃ tickets : List (Ticket ρ), q'.executed = q.executed ++ tickets ∧
    q'.state = (tickets.map (·.change)).foldl visit q.state

theorem visits_none (hexecuted : q'.executed = q.executed) (hstate : q'.state = q.state) :
    Visits visit q q' := ⟨[], hexecuted.trans (List.append_nil _).symm, hstate⟩

theorem step_spec (hstep : q.step visit action = some q') :
    q.Effect action q'.toRequests ∧ Visits visit q q' := by
  cases action with
  | lock thread =>
      simp only [step, Option.ite_none_right_eq_some, Option.some.injEq] at hstep
      obtain ⟨-, rfl⟩ := hstep
      exact ⟨.same, visits_none rfl rfl⟩
  | unlock thread =>
      simp only [step, Option.ite_none_right_eq_some, Option.some.injEq] at hstep
      obtain ⟨-, rfl⟩ := hstep
      exact ⟨.same, visits_none rfl rfl⟩
  | resetHolder =>
      cases hstep
      exact ⟨.same, visits_none rfl rfl⟩
  | call thread change mode =>
      simp only [step, Option.ite_none_right_eq_some, Option.some.injEq] at hstep
      obtain ⟨hidle, rfl⟩ := hstep
      exact ⟨.call hidle, visits_none rfl rfl⟩
  | enqueue thread =>
      simp only [step] at hstep
      split at hstep
      · cases hstep
      · next call hcall =>
          simp only [Option.ite_none_right_eq_some, Option.some.injEq] at hstep
          obtain ⟨-, rfl⟩ := hstep
          unfold enqueue
          split
          · next hholder => exact ⟨.pushInternal hcall hholder, visits_none rfl rfl⟩
          · next hholder => exact ⟨.push hcall hholder, visits_none rfl rfl⟩
  | executeNow thread =>
      simp only [step] at hstep
      split at hstep
      · cases hstep
      · next call hcall =>
          simp only [Option.ite_none_right_eq_some, Option.some.injEq] at hstep
          obtain ⟨-, rfl⟩ := hstep
          exact ⟨.executeNow hcall, [call.ticket thread], rfl, rfl⟩
  | execute =>
      simp only [step] at hstep
      split at hstep
      · cases hstep
      · next ticket mQueue hqueue =>
          simp only [Option.ite_none_right_eq_some, Option.some.injEq] at hstep
          obtain ⟨-, rfl⟩ := hstep
          exact ⟨.execute hqueue, [ticket], rfl, rfl⟩
  | processInternalQueue =>
      simp only [step, Option.ite_none_right_eq_some, Option.some.injEq] at hstep
      obtain ⟨-, rfl⟩ := hstep
      exact ⟨.same, visits_none rfl rfl⟩
  | executeInternal =>
      simp only [step] at hstep
      split at hstep
      · cases hstep
      · next ticket mQueueInternal hqueue =>
          simp only [Option.ite_none_right_eq_some, Option.some.injEq] at hstep
          obtain ⟨-, rfl⟩ := hstep
          exact ⟨.executeInternal hqueue, [ticket], rfl, rfl⟩
  | drained =>
      simp only [step, Option.ite_none_right_eq_some, Option.some.injEq] at hstep
      obtain ⟨-, rfl⟩ := hstep
      exact ⟨.same, visits_none rfl rfl⟩

/-- The cases of a step, with all that it does. -/
inductive Steps (visit : σ → ρ → σ) (q : RequestQueues ρ σ) :
    Action ρ → RequestQueues ρ σ → Prop
  | lock {thread} (hfree : q.mMutex = none) (hidle : q.calls thread = none) :
      Steps visit q (.lock thread) (q.lock thread)
  | unlock {thread} (howner : q.mMutex = some thread) (hidle : q.calls thread = none)
      (hworker : thread = .worker → q.draining = false ∧ q.mQueue = []) :
      Steps visit q (.unlock thread) q.unlock
  | resetHolder : Steps visit q .resetHolder { q with mCurrentRWHolderOfMMutex := none }
  | call {thread change mode} (hidle : q.calls thread = none) :
      Steps visit q (.call thread change mode)
        { q with toRequests := q.toRequests.call thread change mode }
  | enqueue {thread call} (hcall : q.calls thread = some call) (hmode : call.mode ≠ .sync) :
      Steps visit q (.enqueue thread)
        (RequestQueues.enqueue { q with toRequests := q.toRequests.endCall thread } thread
          (call.ticket thread))
  | executeNow {thread call} (hcall : q.calls thread = some call) (hmode : call.mode ≠ .async)
      (hfree : q.mMutex = none) :
      Steps visit q (.executeNow thread)
        (executeChangeRequest visit
          (RequestQueues.lock { q with toRequests := q.toRequests.endCall thread } thread)
          (call.ticket thread))
  | execute {ticket mQueue} (hqueue : q.mQueue = ticket :: mQueue)
      (howner : q.mMutex = some .worker) (hdraining : q.draining = false) :
      Steps visit q .execute
        { executeChangeRequest visit { q with mQueue := mQueue } ticket with draining := true }
  | processInternalQueue (howner : q.mMutex = some .worker) (hqueue : q.mQueue = []) :
      Steps visit q .processInternalQueue { q with draining := true }
  | executeInternal {ticket mQueueInternal} (hqueue : q.mQueueInternal = ticket :: mQueueInternal)
      (howner : q.mMutex = some .worker) :
      Steps visit q .executeInternal
        (executeChangeRequest visit { q with mQueueInternal := mQueueInternal } ticket)
  | drained (howner : q.mMutex = some .worker) (hqueue : q.mQueueInternal = []) :
      Steps visit q .drained { q with draining := false }

theorem steps_of_step (hstep : q.step visit action = some q') : Steps visit q action q' := by
  cases action with
  | lock thread =>
      simp only [step, Option.ite_none_right_eq_some, Option.some.injEq] at hstep
      obtain ⟨⟨hfree, hidle⟩, rfl⟩ := hstep
      exact .lock hfree hidle
  | unlock thread =>
      simp only [step, Option.ite_none_right_eq_some, Option.some.injEq] at hstep
      obtain ⟨⟨howner, hidle, hworker⟩, rfl⟩ := hstep
      exact .unlock howner hidle hworker
  | resetHolder =>
      cases hstep
      exact .resetHolder
  | call thread change mode =>
      simp only [step, Option.ite_none_right_eq_some, Option.some.injEq] at hstep
      obtain ⟨hidle, rfl⟩ := hstep
      exact .call hidle
  | enqueue thread =>
      simp only [step] at hstep
      split at hstep
      · cases hstep
      · next call hcall =>
          obtain ⟨hmode, hstep⟩ := Option.ite_none_right_eq_some.mp hstep
          cases hstep
          exact .enqueue hcall hmode
  | executeNow thread =>
      simp only [step] at hstep
      split at hstep
      · cases hstep
      · next call hcall =>
          obtain ⟨⟨hmode, hfree⟩, hstep⟩ := Option.ite_none_right_eq_some.mp hstep
          cases hstep
          exact .executeNow hcall hmode hfree
  | execute =>
      simp only [step] at hstep
      split at hstep
      · cases hstep
      · next ticket mQueue hqueue =>
          obtain ⟨⟨howner, hdraining⟩, hstep⟩ := Option.ite_none_right_eq_some.mp hstep
          cases hstep
          exact .execute hqueue howner hdraining
  | processInternalQueue =>
      simp only [step, Option.ite_none_right_eq_some, Option.some.injEq] at hstep
      obtain ⟨⟨howner, -, hqueue⟩, rfl⟩ := hstep
      exact .processInternalQueue howner hqueue
  | executeInternal =>
      simp only [step] at hstep
      split at hstep
      · cases hstep
      · next ticket mQueueInternal hqueue =>
          obtain ⟨⟨howner, -⟩, hstep⟩ := Option.ite_none_right_eq_some.mp hstep
          cases hstep
          exact .executeInternal hqueue howner
  | drained =>
      simp only [step, Option.ite_none_right_eq_some, Option.some.injEq] at hstep
      obtain ⟨⟨howner, -, hqueue⟩, rfl⟩ := hstep
      exact .drained howner hqueue

theorem state_enqueue (q : RequestQueues ρ σ) (thread : Thread) (ticket : Ticket ρ) :
    (q.enqueue thread ticket).state = q.state := by
  unfold enqueue
  split
  · rfl
  · rfl

theorem mMutex_enqueue (q : RequestQueues ρ σ) (thread : Thread) (ticket : Ticket ρ) :
    (q.enqueue thread ticket).mMutex = q.mMutex := by
  unfold enqueue
  split
  · rfl
  · rfl

theorem calls_enqueue (q : RequestQueues ρ σ) (thread : Thread) (ticket : Ticket ρ) :
    (q.enqueue thread ticket).calls = q.calls := by
  unfold enqueue
  split
  · rfl
  · rfl

end RequestQueues

namespace Requests

variable {ρ : Type} {r : Requests ρ} {thread t : Thread} {K : Ticket ρ → Bool}

/-! ## What waits -/

/-- The request a thread is about to queue or to execute. -/
def called (r : Requests ρ) (thread : Thread) : List (Ticket ρ) :=
  ((r.calls thread).map (·.ticket thread)).toList

theorem called_of_none (h : r.calls thread = none) : r.called thread = [] := by
  rw [called, h]
  rfl

theorem called_of_some {call : PendingCall ρ} (h : r.calls thread = some call) :
    r.called thread = [call.ticket thread] := by
  rw [called, h]
  rfl

@[simp] theorem called_call (thread : Thread) (change : ρ) (mode : RequestChangeMode) :
    (r.call thread change mode).called thread = [⟨r.made.length, thread, change⟩] := by
  simp only [called, call, Function.update_self]
  rfl

theorem called_call_of_ne (h : t ≠ thread) (change : ρ) (mode : RequestChangeMode) :
    (r.call thread change mode).called t = r.called t := by
  simp only [called, call, Function.update_of_ne h]

@[simp] theorem called_endCall (thread : Thread) : (r.endCall thread).called thread = [] :=
  called_of_none (Function.update_self _ _ _)

theorem called_endCall_of_ne (h : t ≠ thread) : (r.endCall thread).called t = r.called t := by
  simp only [called, endCall, Function.update_of_ne h]

/-! ## A class of requests -/

/-- The requests of a class are all made by one thread. -/
def MadeBy (K : Ticket ρ → Bool) (thread : Thread) : Prop :=
  ∀ ticket, K ticket = true → ticket.thread = thread

/-- The requests of a thread, wherever they are. -/
def everywhere (r : Requests ρ) (thread : Thread) : List (Ticket ρ) :=
  r.executed ++ r.mQueueInternal ++ r.mQueue ++ r.called thread

/-- The requests of a class that have been executed are the first of those made, and
those that wait follow in the order in which they were made. -/
structure InTurn (K : Ticket ρ → Bool) (thread : Thread) (r : Requests ρ) : Prop where
  inOrder : r.made.filter K = (r.everywhere thread).filter K
  oneQueue : r.mQueueInternal.filter K = [] ∨ r.mQueue.filter K = []

/-- No request of a class gets lost, and none is doubled. -/
def Accounted (K : Ticket ρ → Bool) (thread : Thread) (r : Requests ρ) : Prop :=
  (r.made.filter K).Perm ((r.everywhere thread).filter K)

theorem filter_everywhere (r : Requests ρ) (K : Ticket ρ → Bool) (thread : Thread) :
    (r.everywhere thread).filter K =
      r.executed.filter K ++ r.mQueueInternal.filter K ++ r.mQueue.filter K ++
        (r.called thread).filter K := by
  simp only [everywhere, List.filter_append]

theorem MadeBy.filter_of_ne (hK : MadeBy K thread) (ticket : Ticket ρ) (h : ticket.thread ≠ thread) :
    [ticket].filter K = [] :=
  List.filter_eq_nil_iff.mpr fun _ hmem hticket =>
    h (List.mem_singleton.mp hmem ▸ hK _ hticket)

/-- A call adds its request to those of the class, if it is one. -/
theorem MadeBy.filter_called_call (hK : MadeBy K thread) {t : Thread} (hidle : r.calls t = none)
    (change : ρ) (mode : RequestChangeMode) :
    ((r.call t change mode).called thread).filter K =
      (r.called thread).filter K ++ [⟨r.made.length, t, change⟩].filter K := by
  by_cases ht : t = thread
  · subst ht
    rw [called_call, called_of_none hidle]
    rfl
  · rw [called_call_of_ne (Ne.symm ht), hK.filter_of_ne _ ht, List.append_nil]

/-- The end of a call takes it away. -/
theorem MadeBy.filter_called_endCall (hK : MadeBy K thread) {t : Thread} {call : PendingCall ρ}
    (hcall : r.calls t = some call) :
    (r.called thread).filter K =
      ((r.endCall t).called thread).filter K ++ [call.ticket t].filter K := by
  by_cases ht : t = thread
  · subst ht
    rw [called_endCall, called_of_some hcall]
    rfl
  · rw [called_endCall_of_ne (Ne.symm ht), hK.filter_of_ne (call.ticket t) ht,
      List.append_nil]

/-! ## Where they go -/

variable {ticket : Ticket ρ}

theorem MadeBy.filter_everywhere_call (hK : MadeBy K thread) {t : Thread} (hidle : r.calls t = none)
    (change : ρ) (mode : RequestChangeMode) :
    ((r.call t change mode).everywhere thread).filter K =
      (r.everywhere thread).filter K ++ [⟨r.made.length, t, change⟩].filter K := by
  rw [filter_everywhere, filter_everywhere, hK.filter_called_call hidle, ← List.append_assoc]
  rfl

/-- The end of a call leaves its request to be put somewhere else. -/
theorem MadeBy.filter_everywhere_endCall (hK : MadeBy K thread) {t : Thread}
    {call : PendingCall ρ} (hcall : r.calls t = some call) :
    (r.everywhere thread).filter K =
      ((r.endCall t).everywhere thread).filter K ++ [call.ticket t].filter K := by
  rw [filter_everywhere, filter_everywhere, hK.filter_called_endCall hcall, List.append_assoc]
  simp only [List.append_assoc]
  rfl

/-- A thread whose call has ended has made no other. -/
theorem MadeBy.called_endCall (hK : MadeBy K thread) {t : Thread} {call : PendingCall ρ}
    (hticket : K (call.ticket t) = true) : (r.endCall t).called thread = [] := by
  rw [← hK _ hticket]
  exact Requests.called_endCall t

/-- Whatever place a request is put at, it is there once more. -/
theorem perm_insert (front back : List (Ticket ρ)) (ticket : Ticket ρ) :
    (front ++ back ++ [ticket]).Perm (front ++ [ticket] ++ back) := by
  rw [List.append_assoc, List.append_assoc]
  exact List.perm_append_comm.append_left front

theorem perm_everywhere_push (r : Requests ρ) (ticket : Ticket ρ) (thread : Thread) :
    (r.everywhere thread ++ [ticket]).Perm ((r.push ticket).everywhere thread) := by
  have hinsert := perm_insert (r.executed ++ r.mQueueInternal ++ r.mQueue) (r.called thread) ticket
  simpa only [everywhere, push, called, List.append_assoc] using hinsert

theorem perm_everywhere_pushInternal (r : Requests ρ) (ticket : Ticket ρ) (thread : Thread) :
    (r.everywhere thread ++ [ticket]).Perm ((r.pushInternal ticket).everywhere thread) := by
  have hinsert := perm_insert (r.executed ++ r.mQueueInternal) (r.mQueue ++ r.called thread) ticket
  simpa only [everywhere, pushInternal, called, List.append_assoc] using hinsert

theorem perm_everywhere_execute (r : Requests ρ) (ticket : Ticket ρ) (thread : Thread) :
    (r.everywhere thread ++ [ticket]).Perm ((r.execute ticket).everywhere thread) := by
  have hinsert := perm_insert r.executed (r.mQueueInternal ++ r.mQueue ++ r.called thread) ticket
  simpa only [everywhere, execute, called, List.append_assoc] using hinsert

/-- The head of the internal queue is next. -/
theorem everywhere_executeInternal {mQueueInternal : List (Ticket ρ)}
    (hqueue : r.mQueueInternal = ticket :: mQueueInternal) (thread : Thread) :
    (execute { r with mQueueInternal := mQueueInternal } ticket).everywhere thread =
      r.everywhere thread := by
  simp only [everywhere, execute, hqueue, called, List.append_assoc, List.cons_append,
    List.nil_append]

theorem perm_everywhere_executeQueue {mQueue : List (Ticket ρ)}
    (hqueue : r.mQueue = ticket :: mQueue) (thread : Thread) :
    (r.everywhere thread).Perm
      ((execute { r with mQueue := mQueue } ticket).everywhere thread) := by
  have hmove : (r.mQueueInternal ++ [ticket]).Perm ([ticket] ++ r.mQueueInternal) :=
    List.perm_append_comm
  have hback := (hmove.append_left r.executed).append_right (mQueue ++ r.called thread)
  simpa only [everywhere, execute, hqueue, called, List.append_assoc, List.cons_append,
    List.nil_append] using hback

/-! ## In order -/

theorem filter_append_of_not_mem (l : List (Ticket ρ)) (hticket : K ticket = false) :
    (l ++ [ticket]).filter K = l.filter K := by
  rw [List.filter_append, List.filter_singleton, hticket]
  exact List.append_nil _

theorem filter_eq_nil_of_cons {l : List (Ticket ρ)} (h : (ticket :: l).filter K = []) :
    K ticket ≠ true ∧ l.filter K = [] :=
  have hnone := List.filter_eq_nil_iff.mp h
  ⟨hnone ticket List.mem_cons_self,
    List.filter_eq_nil_iff.mpr fun t ht => hnone t (List.mem_cons_of_mem _ ht)⟩

/-- Before others a request counts as the last only if they are none of its class. -/
theorem filter_insert (front back : List (Ticket ρ))
    (hback : K ticket = true → back.filter K = []) :
    (front ++ [ticket] ++ back).filter K = (front ++ back ++ [ticket]).filter K := by
  cases hticket : K ticket with
  | true =>
      simp only [List.filter_append]
      rw [hback hticket, List.append_nil, List.append_nil]
  | false =>
      rw [filter_append_of_not_mem _ hticket, List.filter_append,
        filter_append_of_not_mem _ hticket, List.filter_append]

theorem filter_everywhere_push (h : K ticket = true → r.called thread = []) :
    ((r.push ticket).everywhere thread).filter K = (r.everywhere thread ++ [ticket]).filter K := by
  have hinsert := filter_insert (r.executed ++ r.mQueueInternal ++ r.mQueue) (r.called thread)
    fun hticket => (congrArg (List.filter K) (h hticket) : _ = List.filter K [])
  simpa only [everywhere, push, called, List.append_assoc] using hinsert

theorem filter_everywhere_pushInternal
    (h : K ticket = true → (r.mQueue ++ r.called thread).filter K = []) :
    ((r.pushInternal ticket).everywhere thread).filter K =
      (r.everywhere thread ++ [ticket]).filter K := by
  have hinsert := filter_insert (r.executed ++ r.mQueueInternal) (r.mQueue ++ r.called thread) h
  simpa only [everywhere, pushInternal, called, List.append_assoc] using hinsert

theorem filter_everywhere_execute
    (h : K ticket = true → (r.mQueueInternal ++ r.mQueue ++ r.called thread).filter K = []) :
    ((r.execute ticket).everywhere thread).filter K =
      (r.everywhere thread ++ [ticket]).filter K := by
  have hinsert := filter_insert r.executed (r.mQueueInternal ++ r.mQueue ++ r.called thread) h
  simpa only [everywhere, execute, called, List.append_assoc] using hinsert

theorem filter_everywhere_executeQueue {mQueue : List (Ticket ρ)}
    (hqueue : r.mQueue = ticket :: mQueue) (h : K ticket = true → r.mQueueInternal.filter K = []) :
    ((execute { r with mQueue := mQueue } ticket).everywhere thread).filter K =
      (r.everywhere thread).filter K := by
  have hinsert := congrArg (· ++ (mQueue ++ r.called thread).filter K)
    (filter_insert r.executed r.mQueueInternal h)
  simpa only [← List.filter_append, everywhere, execute, hqueue, called, List.append_assoc,
    List.cons_append, List.nil_append] using hinsert

end Requests

namespace RequestQueues

variable {ρ σ : Type} {visit : σ → ρ → σ} {q q' : RequestQueues ρ σ} {r : Requests ρ}
  {action : Action ρ} {thread : Thread} {K : Ticket ρ → Bool}
  {Related : Ticket ρ → Ticket ρ → Prop}

/-! ## Every request once -/

theorem Effect.accounted (heffect : q.Effect action r) (hK : Requests.MadeBy K thread)
    (h : q.toRequests.Accounted K thread) : r.Accounted K thread := by
  unfold Requests.Accounted at h ⊢
  cases heffect with
  | same => exact h
  | call hidle =>
      rw [hK.filter_everywhere_call hidle]
      simp only [Requests.call, List.filter_append]
      exact h.append_right _
  | pushInternal hcall hholder =>
      rw [hK.filter_everywhere_endCall hcall, ← List.filter_append] at h
      exact h.trans ((Requests.perm_everywhere_pushInternal _ _ thread).filter K)
  | push hcall hholder =>
      rw [hK.filter_everywhere_endCall hcall, ← List.filter_append] at h
      exact h.trans ((Requests.perm_everywhere_push _ _ thread).filter K)
  | executeNow hcall =>
      rw [hK.filter_everywhere_endCall hcall, ← List.filter_append] at h
      exact h.trans ((Requests.perm_everywhere_execute _ _ thread).filter K)
  | execute hqueue =>
      exact h.trans ((Requests.perm_everywhere_executeQueue hqueue thread).filter K)
  | executeInternal hqueue =>
      rw [Requests.everywhere_executeInternal hqueue]
      exact h

/-! ## Requests in turn -/

/-- A request that is queued joins the queue in which those related to it wait, and one
that is executed at once leaves none of them waiting. -/
def TakesTurn (Related : Ticket ρ → Ticket ρ → Prop) (q : RequestQueues ρ σ) : Action ρ → Prop
  | .enqueue thread =>
    ∀ call ∈ q.calls thread,
      ∀ ticket ∈ if q.mCurrentRWHolderOfMMutex = some thread then q.mQueue else q.mQueueInternal,
        ¬ Related (call.ticket thread) ticket
  | .executeNow thread =>
    ∀ call ∈ q.calls thread, ∀ ticket ∈ q.mQueueInternal ++ q.mQueue,
      ¬ Related (call.ticket thread) ticket
  | _ => True

theorem filter_eq_nil_of_unrelated (hrelated : ∀ t t', K t = true → K t' = true → Related t t')
    {ticket : Ticket ρ} (hticket : K ticket = true) {l : List (Ticket ρ)}
    (h : ∀ t ∈ l, ¬ Related ticket t) : l.filter K = [] :=
  List.filter_eq_nil_iff.mpr fun t ht hKt => h t ht (hrelated ticket t hticket hKt)

theorem Effect.inTurn (heffect : q.Effect action r) (hK : Requests.MadeBy K thread)
    (hrelated : ∀ t t', K t = true → K t' = true → Related t t')
    (hturn : q.TakesTurn Related action) (h : q.toRequests.InTurn K thread) :
    r.InTurn K thread := by
  obtain ⟨horder, hone⟩ := h
  cases heffect with
  | same => exact ⟨horder, hone⟩
  | call hidle =>
      refine ⟨?_, hone⟩
      rw [hK.filter_everywhere_call hidle, ← horder]
      exact List.filter_append ..
  | @pushInternal t call hcall hholder =>
      simp only [TakesTurn, if_pos hholder] at hturn
      have hnone : K (call.ticket t) = true → q.mQueue.filter K = [] :=
        fun hticket => filter_eq_nil_of_unrelated hrelated hticket (hturn call hcall)
      rw [hK.filter_everywhere_endCall hcall, ← List.filter_append] at horder
      -- The call leaves the end of the line for a queue in the middle of it.
      refine ⟨horder.trans (Requests.filter_everywhere_pushInternal fun hticket => ?_).symm, ?_⟩
      · rw [hK.called_endCall hticket, List.append_nil]
        exact hnone hticket
      · cases hticket : K (call.ticket t) with
        | true => exact .inr (hnone hticket)
        | false => exact hone.imp_left (Requests.filter_append_of_not_mem _ hticket).trans
  | @push t call hcall hholder =>
      simp only [TakesTurn, if_neg hholder] at hturn
      have hnone : K (call.ticket t) = true → q.mQueueInternal.filter K = [] :=
        fun hticket => filter_eq_nil_of_unrelated hrelated hticket (hturn call hcall)
      rw [hK.filter_everywhere_endCall hcall, ← List.filter_append] at horder
      refine ⟨horder.trans (Requests.filter_everywhere_push hK.called_endCall).symm, ?_⟩
      cases hticket : K (call.ticket t) with
      | true => exact .inl (hnone hticket)
      | false => exact hone.imp_right (Requests.filter_append_of_not_mem _ hticket).trans
  | @executeNow t call hcall =>
      rw [hK.filter_everywhere_endCall hcall, ← List.filter_append] at horder
      -- It overtakes whatever waits, which is none of its thread's.
      refine ⟨horder.trans (Requests.filter_everywhere_execute fun hticket => ?_).symm, hone⟩
      rw [hK.called_endCall hticket, List.append_nil]
      exact filter_eq_nil_of_unrelated hrelated hticket (hturn call hcall)
  | @execute ticket mQueue hqueue =>
      have hnone : K ticket = true → q.mQueueInternal.filter K = [] := by
        intro hticket
        refine hone.resolve_right fun hempty => ?_
        rw [hqueue] at hempty
        exact (Requests.filter_eq_nil_of_cons hempty).1 hticket
      refine ⟨horder.trans (Requests.filter_everywhere_executeQueue hqueue hnone).symm, ?_⟩
      refine hone.imp_right fun hempty => ?_
      rw [hqueue] at hempty
      exact (Requests.filter_eq_nil_of_cons hempty).2
  | @executeInternal ticket mQueueInternal hqueue =>
      rw [← Requests.everywhere_executeInternal hqueue] at horder
      refine ⟨horder, hone.imp_left fun hempty => ?_⟩
      rw [hqueue] at hempty
      exact (Requests.filter_eq_nil_of_cons hempty).2

/-! ## Numbers -/

/-- A request has the number of those made before it. -/
def Numbered (r : Requests ρ) : Prop := r.made.map (·.number) = List.range r.made.length

theorem Numbered.nodup (h : Numbered r) : r.made.Nodup :=
  List.Nodup.of_map (·.number) (h ▸ List.nodup_range)

theorem Effect.numbered (heffect : q.Effect action r) (h : Numbered q.toRequests) : Numbered r := by
  cases heffect with
  | call hidle =>
      simp only [Numbered, Requests.call, List.map_append, List.map_cons, List.map_nil,
        List.length_append, List.length_singleton, List.range_succ]
      rw [h]
  | _ => exact h

/-! ## Runs -/

/-- The executed requests of a class are always the first of those made. -/
theorem inTurn_of_isRun {state : σ} {run : List (Action ρ × RequestQueues ρ σ)}
    (hrun : Runs.IsRun (Runs.StepOf (step visit)) (initial state) run)
    (hK : Requests.MadeBy K thread) (hrelated : ∀ t t', K t = true → K t' = true → Related t t')
    (hturn : Runs.AllSteps (TakesTurn Related) (initial state) run) :
    Runs.AllStates (fun q => q.toRequests.InTurn K thread) run :=
  hrun.invariant_of_allSteps
    (fun _ _ _ h hturn hstep => (step_spec hstep).1.inTurn hK hrelated hturn h)
    ⟨rfl, .inl rfl⟩ hturn

theorem accounted_of_isRun {state : σ} {run : List (Action ρ × RequestQueues ρ σ)}
    (hrun : Runs.IsRun (Runs.StepOf (step visit)) (initial state) run)
    (hK : Requests.MadeBy K thread) :
    Runs.AllStates (fun q => q.toRequests.Accounted K thread) run :=
  hrun.invariant (fun _ _ _ h hstep => (step_spec hstep).1.accounted hK h) (.refl _)

theorem numbered_of_isRun {state : σ} {run : List (Action ρ × RequestQueues ρ σ)}
    (hrun : Runs.IsRun (Runs.StepOf (step visit)) (initial state) run) :
    Runs.AllStates (fun q => Numbered q.toRequests) run :=
  hrun.invariant (fun _ _ _ h hstep => (step_spec hstep).1.numbered h) rfl

/-- The state is what the executed requests have made of the first one. -/
theorem state_of_isRun {state : σ} {run : List (Action ρ × RequestQueues ρ σ)}
    (hrun : Runs.IsRun (Runs.StepOf (step visit)) (initial state) run) :
    Runs.AllStates (fun q => q.state = (q.executed.map (·.change)).foldl visit state) run := by
  refine hrun.invariant (fun q _ q' h hstep => ?_) rfl
  obtain ⟨tickets, hexecuted, hstate⟩ := (step_spec hstep).2
  rw [hstate, h, hexecuted, List.map_append, List.foldl_append]

instance [DecidableRel Related] (q : RequestQueues ρ σ) :
    (action : Action ρ) → Decidable (q.TakesTurn Related action)
  | .enqueue thread =>
    inferInstanceAs (Decidable (∀ call ∈ q.calls thread, ∀ ticket ∈ ite _ _ _, ¬ Related _ ticket))
  | .executeNow thread =>
    inferInstanceAs (Decidable (∀ call ∈ q.calls thread, ∀ ticket ∈ _, ¬ Related _ ticket))
  | .lock _ | .unlock _ | .resetHolder | .call _ _ _ | .execute | .processInternalQueue |
    .executeInternal | .drained => isTrue trivial

end RequestQueues

end NioevMqtt
