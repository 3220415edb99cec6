-- SUMMARY: How the program ends: after a signal to terminate, when the threads that accept, serve and execute can all be joined without a client's help, and which steps lose that.
import NioevMqtt.Library.Progress
import NioevMqtt.Library.Runs
import Mathlib.Algebra.Order.BigOperators.Group.Finset
import Mathlib.Data.Fintype.Basic

/-!
# The end of the program

From the signal to terminate to the end of `~ClientThreadManager`: `main`, the thread of the
signals, that of the `TcpServer`, the worker thread and those that receive, as far as they
wait for each other. A thread in `poll` is woken by a signal only while it is in there. The
threads that receive keep `SIGUSR1` blocked, and so for the next `epoll_pwait`. Of the timers'
thread there are only the signals of a suspension.
-/

namespace NioevMqtt

/-! ## The threads -/

/-- What `main` does next. -/
inductive MainPc (n : Nat) where
  /-- The constructor of `server`. -/
  | building
  /-- `gTcpServer = &server`. -/
  | publishing
  /-- `rest.run`. -/
  | serving
  | joiningServer
  | joiningHandler
  /-- `~ApplicationState` sets `mShouldRun`. -/
  | stoppingWorker
  | joiningWorker
  /-- `syncRetainedMessagesToDb`. -/
  | saving
  /-- `~ClientThreadManager` sets `mShouldQuit`. -/
  | quitting
  /-- The loop over `mReceiverThreads`, and those of them that remain. -/
  | ending (threads : List (Fin n))
  | joining (thread : Fin n) (threads : List (Fin n))
  /-- `close(mEpollFd)`. -/
  | closing
deriving DecidableEq, Repr

/-- How far `main` is. -/
def MainPc.stage {n : Nat} : MainPc n → Nat
  | .building => 0
  | .publishing => 1
  | .serving => 2
  | .joiningServer => 3
  | .joiningHandler => 4
  | .stoppingWorker => 5
  | .joiningWorker => 6
  | .saving => 7
  | .quitting => 8
  | .ending _ | .joining _ _ => 9
  | .closing => 10

/-- The threads that are still to be joined. -/
def MainPc.threads {n : Nat} : MainPc n → List (Fin n)
  | .ending threads => threads
  | .joining thread threads => thread :: threads
  | .closing => []
  | _ => List.finRange n

/-- How much it has still to do. -/
def MainPc.rank {n : Nat} : MainPc n → Nat
  | .closing => 0
  | .ending threads => 2 * threads.length + 1
  | .joining _ threads => 2 * threads.length + 2
  | pc => 2 * n + 11 - pc.stage

/-- What the thread of the signals does next. -/
inductive HandlerPc where
  /-- `sigwait`. -/
  | waiting
  /-- `if(gTcpServer)`. -/
  | testing
  /-- `requestStop` sets `mShouldRun`. -/
  | stopping
  /-- `pthread_kill` of `requestStop`. -/
  | killing
  /-- `rest.abort`. -/
  | aborting
  | ended
deriving DecidableEq, Repr

/-- `requestStop` is behind it, or will not be called. -/
def HandlerPc.isDone : HandlerPc → Bool
  | .aborting | .ended => true
  | _ => false

def HandlerPc.rank : HandlerPc → Nat
  | .waiting => 5
  | .testing => 4
  | .stopping => 3
  | .killing => 2
  | .aborting => 1
  | .ended => 0

/-- What the thread of the `TcpServer` does next. -/
inductive ServerPc where
  | unbuilt
  /-- `while(mShouldRun)`. -/
  | testing
  /-- It is to call `poll`. -/
  | calling
  | polling
  /-- `poll` has returned, and it looks at `mShouldRun` before it accepts anybody. -/
  | returned
  | ended
deriving DecidableEq, Repr

/-- What the worker thread does next. -/
inductive WorkerPc where
  /-- `while(mShouldRun)`. -/
  | testing
  /-- `while(!mQueue.was_empty())`. -/
  | draining
  | ended
deriving DecidableEq, Repr

/-- What a thread that receives does next. -/
inductive ServingPc where
  /-- `while(!mShouldQuit)`. -/
  | testing
  /-- `epoll_pwait`. -/
  | polling
  /-- The rest of the loop's body, with so many requests to put into `mQueue`. -/
  | handling (requests : Nat)
  | ended
deriving DecidableEq, Repr

def ServingPc.requests : ServingPc → Nat
  | .handling requests => requests
  | _ => 0

def ServingPc.rank : ServingPc → Nat
  | .handling requests => requests + 2
  | .polling => 3
  | .testing => 1
  | .ended => 0

structure Shutdown (n : Nat) where
  main : MainPc n := .building
  handler : HandlerPc := .waiting
  gTcpServer : Bool := false
  server : ServerPc := .unbuilt
  /-- `mShouldRun` of the `TcpServer`. -/
  serverShouldRun : Bool := true
  /-- `rest.abort` has been called. -/
  aborted : Bool := false
  worker : WorkerPc := .testing
  mShouldRun : Bool := true
  /-- How many requests are in `mQueue`. -/
  size : Nat := 0
  receivers : Fin n → ServingPc := fun _ => .testing
  /-- A `SIGUSR1` waits for the next `epoll_pwait`. -/
  pending : Fin n → Bool := fun _ => false
  mShouldQuit : Bool := false

inductive ShutdownAction (n : Nat) where
  | main
  | handler
  | server
  | worker
  | receiver (i : Fin n)
  /-- `SIGINT` or `SIGTERM`. -/
  | terminate
  /-- Somebody connects. -/
  | connect
  /-- `rest.run` returns at once, as there is no port for it. -/
  | noPort
  /-- Clients have sent something. -/
  | events (i : Fin n) (requests : Nat)
  /-- `pthread_kill` of `suspendAllThreads`. -/
  | signal (i : Fin n)
  /-- Another thread puts a request into the queue. -/
  | request
deriving DecidableEq, Repr

/-- It is something that one cannot wait for. -/
def ShutdownAction.isOutside {n : Nat} : ShutdownAction n → Bool
  | .main | .handler | .server | .worker | .receiver _ => false
  | _ => true

namespace Shutdown

variable {n : Nat}

def stepMain (s : Shutdown n) : Option (Shutdown n) :=
  match s.main with
  | .building => some { s with server := .testing, main := .publishing }
  | .publishing => some { s with gTcpServer := true, main := .serving }
  | .serving => if s.aborted then some { s with main := .joiningServer } else none
  | .joiningServer => if s.server = .ended then some { s with main := .joiningHandler } else none
  -- The destructor of `server` finds that `mShouldRun` is false already.
  | .joiningHandler => if s.handler = .ended then some { s with main := .stoppingWorker } else none
  | .stoppingWorker => some { s with mShouldRun := false, main := .joiningWorker }
  | .joiningWorker => if s.worker = .ended then some { s with main := .saving } else none
  | .saving => some { s with main := .quitting }
  | .quitting => some { s with mShouldQuit := true, main := .ending (List.finRange n) }
  | .ending [] => some { s with main := .closing }
  | .ending (i :: threads) =>
    some { s with pending := Function.update s.pending i true, main := .joining i threads }
  | .joining i threads =>
    if s.receivers i = .ended then some { s with main := .ending threads } else none
  | .closing => none

def stepHandler (s : Shutdown n) : Option (Shutdown n) :=
  match s.handler with
  | .waiting => none
  | .testing => some { s with handler := if s.gTcpServer then .stopping else .aborting }
  | .stopping => some { s with serverShouldRun := false, handler := .killing }
  | .killing =>
    some
      { s with
        server := if s.server = .polling then .returned else s.server
        gTcpServer := false
        handler := .aborting }
  | .aborting => some { s with aborted := true, handler := .ended }
  | .ended => none

def stepServer (s : Shutdown n) : Option (Shutdown n) :=
  match s.server with
  | .testing => some { s with server := if s.serverShouldRun then .calling else .ended }
  | .calling => some { s with server := .polling }
  | .returned => some { s with server := if s.serverShouldRun then .testing else .ended }
  | .unbuilt | .polling | .ended => none

def stepWorker (s : Shutdown n) : Option (Shutdown n) :=
  match s.worker with
  | .testing => some { s with worker := if s.mShouldRun then .draining else .ended }
  | .draining =>
    if 0 < s.size then some { s with size := s.size - 1 } else some { s with worker := .testing }
  | .ended => none

def setReceiver (s : Shutdown n) (i : Fin n) (pc : ServingPc) : Shutdown n :=
  { s with receivers := Function.update s.receivers i pc }

/-- With a queue that has room for `capacity` requests. -/
def stepReceiver (capacity : Nat) (s : Shutdown n) (i : Fin n) : Option (Shutdown n) :=
  match s.receivers i with
  | .testing => some (s.setReceiver i (if s.mShouldQuit then .ended else .polling))
  | .polling =>
    -- It may have to wait until it is resumed, and goes back to the test then.
    if s.pending i then
      some ({ s with pending := Function.update s.pending i false }.setReceiver i (.handling 0))
    else none
  | .handling 0 => some (s.setReceiver i .testing)
  | .handling (requests + 1) =>
    if s.size < capacity then
      some ({ s with size := s.size + 1 }.setReceiver i (.handling requests))
    else none
  | .ended => none

def step (capacity : Nat) (s : Shutdown n) : ShutdownAction n → Option (Shutdown n)
  | .main => s.stepMain
  | .handler => s.stepHandler
  | .server => s.stepServer
  | .worker => s.stepWorker
  | .receiver i => s.stepReceiver capacity i
  | .terminate => if s.handler = .waiting then some { s with handler := .testing } else none
  | .connect => if s.server = .polling then some { s with server := .returned } else none
  | .noPort => if s.main = .serving then some { s with main := .joiningServer } else none
  | .events i requests =>
    if s.receivers i = .polling then some (s.setReceiver i (.handling requests)) else none
  | .signal i =>
    if s.receivers i = .ended then none
    else some { s with pending := Function.update s.pending i true }
  | .request => if s.size < capacity then some { s with size := s.size + 1 } else none

/-! ## The property -/

/-- One of the threads goes on by itself. -/
def Steps (capacity : Nat) (s t : Shutdown n) : Prop :=
  ∃ action : ShutdownAction n, action.isOutside = false ∧ s.step capacity action = some t

/-- All of them can still be joined. -/
def CanClose (capacity : Nat) (s : Shutdown n) : Prop :=
  ∃ t, Relation.ReflTransGen (Steps capacity) s t ∧ t.main = .closing

/-- The requests that are being handled. -/
def remaining (s : Shutdown n) : Nat := ∑ i, (s.receivers i).requests

/-- The worker thread executes nothing any more. -/
def WorkerGone (s : Shutdown n) : Prop :=
  s.worker = .ended ∨ s.worker = .testing ∧ s.mShouldRun = false

instance (s : Shutdown n) : Decidable s.WorkerGone := inferInstanceAs (Decidable (_ ∨ _))

/-- There is room for what is being handled, or somebody to make room. -/
def HasRoom (capacity : Nat) (s : Shutdown n) : Prop :=
  s.WorkerGone → s.size + s.remaining ≤ capacity

/-- `requestStop` is still to come, or the thread of the `TcpServer` notices it. -/
def ServerStops (s : Shutdown n) : Prop :=
  s.handler.isDone = true →
    s.serverShouldRun = false ∧ s.server ≠ .calling ∧ s.server ≠ .polling

/-- The step comes at the right time. The signal to terminate does not come before
`gTcpServer` is set, the thread of the `TcpServer` is not signalled between its test and
`poll`, and from the worker thread's end on there are no more requests than the queue has room
for. -/
def InTime (capacity : Nat) (s : Shutdown n) : ShutdownAction n → Prop
  | .handler =>
    (s.handler = .testing → s.gTcpServer = true) ∧ (s.handler = .killing → s.server ≠ .calling)
  | .main => s.main = .stoppingWorker → s.worker = .testing → s.size + s.remaining ≤ capacity
  | .worker =>
    s.worker = .draining → s.size = 0 → s.mShouldRun = false → s.remaining ≤ capacity
  | .events _ requests => s.WorkerGone → s.size + s.remaining + requests ≤ capacity
  | .request => s.WorkerGone → s.size + s.remaining + 1 ≤ capacity
  | _ => True

instance decidableInTime (capacity : Nat) (s : Shutdown n) :
    (action : ShutdownAction n) → Decidable (s.InTime capacity action)
  | .main => inferInstanceAs (Decidable (_ → _ → _ ≤ _))
  | .handler => inferInstanceAs (Decidable ((_ → _ = _) ∧ (_ → _ ≠ _)))
  | .worker => inferInstanceAs (Decidable (_ → _ → _ → _ ≤ _))
  | .events _ _ | .request => inferInstanceAs (Decidable (_ → _ ≤ _))
  | .server | .receiver _ | .terminate | .connect | .noPort | .signal _ =>
    inferInstanceAs (Decidable True)

variable {capacity : Nat} {s t : Shutdown n} {action : ShutdownAction n}

/-! ## What a step changes -/

theorem handler_stepMain (hstep : s.stepMain = some t) : t.handler = s.handler := by
  unfold Shutdown.stepMain at hstep
  split at hstep
  case h_3 | h_4 | h_5 | h_7 | h_12 =>
    obtain ⟨-, heq⟩ := Option.ite_none_right_eq_some.mp hstep
    cases heq
    rfl
  case h_13 => cases hstep
  all_goals
    cases hstep
    rfl

theorem eq_of_stepServer (hstep : s.stepServer = some t) : ∃ pc, t = { s with server := pc } := by
  unfold Shutdown.stepServer at hstep
  split at hstep
  case h_4 | h_5 | h_6 => cases hstep
  all_goals
    cases hstep
    exact ⟨_, rfl⟩

theorem eq_of_stepWorker (hstep : s.stepWorker = some t) :
    ∃ pc size, t = { s with worker := pc, size } := by
  unfold Shutdown.stepWorker at hstep
  split at hstep
  case h_1 =>
    cases hstep
    exact ⟨_, _, rfl⟩
  case h_2 =>
    split at hstep
    · cases hstep
      exact ⟨_, _, rfl⟩
    · cases hstep
      exact ⟨_, _, rfl⟩
  case h_3 => cases hstep

theorem eq_of_stepReceiver {i : Fin n} (hstep : s.stepReceiver capacity i = some t) :
    ∃ size receivers pending, t = { s with size, receivers, pending } := by
  unfold Shutdown.stepReceiver at hstep
  split at hstep
  case h_2 | h_4 =>
    obtain ⟨-, heq⟩ := Option.ite_none_right_eq_some.mp hstep
    cases heq
    exact ⟨_, _, _, rfl⟩
  case h_5 => cases hstep
  all_goals
    cases hstep
    exact ⟨_, _, _, rfl⟩

/-- Nobody waits for another signal to terminate. -/
theorem handler_ne_waiting (hnot : s.handler ≠ .waiting)
    (hstep : s.step capacity action = some t) : t.handler ≠ .waiting := by
  cases action with
  | main => rwa [handler_stepMain hstep]
  | handler =>
      simp only [Shutdown.step, Shutdown.stepHandler] at hstep
      split at hstep
      case h_1 | h_6 => cases hstep
      case h_2 =>
        cases hstep
        show (if s.gTcpServer then HandlerPc.stopping else .aborting) ≠ .waiting
        split <;> exact HandlerPc.noConfusion
      all_goals
        cases hstep
        exact HandlerPc.noConfusion
  | server =>
      obtain ⟨pc, rfl⟩ := eq_of_stepServer hstep
      exact hnot
  | worker =>
      obtain ⟨pc, size, rfl⟩ := eq_of_stepWorker hstep
      exact hnot
  | receiver i =>
      obtain ⟨size, receivers, pending, rfl⟩ := eq_of_stepReceiver hstep
      exact hnot
  | terminate =>
      obtain ⟨hwaiting, -⟩ := Option.ite_none_right_eq_some.mp hstep
      exact absurd hwaiting hnot
  | signal i =>
      obtain ⟨-, heq⟩ := Option.ite_none_left_eq_some.mp hstep
      cases heq
      exact hnot
  | _ =>
      obtain ⟨-, heq⟩ := Option.ite_none_right_eq_some.mp hstep
      cases heq
      exact hnot

/-! ## Who has been joined -/

/-- Whatever `main` goes past, it has waited for. -/
structure Sound (capacity : Nat) (s : Shutdown n) : Prop where
  running : s.handler = .waiting ∨ s.handler = .testing ∨ s.handler = .stopping →
    s.serverShouldRun = true
  stopped : s.handler = .killing → s.serverShouldRun = false
  published : 2 ≤ s.main.stage → s.handler = .waiting ∨ s.handler = .testing → s.gTcpServer = true
  built : s.server = .unbuilt ↔ s.main.stage = 0
  serverEnded : s.server = .ended → s.serverShouldRun = false
  aborted : s.handler = .ended → s.aborted = true
  joinedServer : 4 ≤ s.main.stage → s.server = .ended
  joinedHandler : 5 ≤ s.main.stage → s.handler = .ended
  shouldRun : s.mShouldRun = false ↔ 6 ≤ s.main.stage
  workerEnded : s.worker = .ended → s.mShouldRun = false
  joinedWorker : 7 ≤ s.main.stage → s.worker = .ended
  shouldQuit : s.mShouldQuit = true ↔ 9 ≤ s.main.stage
  signalled : ∀ i threads, s.main = .joining i threads → s.receivers i = .polling →
    s.pending i = true
  joined : ∀ i, i ∉ s.main.threads → s.receivers i = .ended
  size_le : s.size ≤ capacity

theorem sound_initial (capacity n : Nat) : Sound capacity ({} : Shutdown n) := by
  constructor <;> simp [MainPc.stage, MainPc.threads]

/-- `main` goes on, where it has what it has waited for. -/
theorem Sound.setMain (h : s.Sound capacity) {pc : MainPc n} (hbuilt : 1 ≤ s.main.stage)
    (hle : s.main.stage ≤ pc.stage) (hnext : pc.stage ≤ s.main.stage + 1)
    (hpublished : pc.stage = 2 → s.gTcpServer = true) (hserver : pc.stage = 4 → s.server = .ended)
    (hhandler : pc.stage = 5 → s.handler = .ended) (hrun : 6 ≤ pc.stage → 6 ≤ s.main.stage)
    (hworker : pc.stage = 7 → s.worker = .ended) (hquit : 9 ≤ pc.stage → 9 ≤ s.main.stage)
    (hsignalled : ∀ i threads, pc = .joining i threads → s.pending i = true)
    (hjoined : ∀ i, i ∉ pc.threads → s.receivers i = .ended) :
    Sound capacity { s with main := pc } := by
  -- Either it has come to the stage just now, or it had come there before.
  have hcases : ∀ k, k ≤ pc.stage → pc.stage = k ∨ k ≤ s.main.stage := by omega
  exact { h with
    published := fun hlate hpc =>
      (hcases 2 hlate).elim hpublished fun hbefore => h.published hbefore hpc
    built := h.built.trans (iff_of_false (Nat.ne_of_gt hbuilt) (Nat.ne_of_gt (hbuilt.trans hle)))
    joinedServer := fun hlate => (hcases 4 hlate).elim hserver h.joinedServer
    joinedHandler := fun hlate => (hcases 5 hlate).elim hhandler h.joinedHandler
    shouldRun := h.shouldRun.trans ⟨fun hbefore => hbefore.trans hle, hrun⟩
    joinedWorker := fun hlate => (hcases 7 hlate).elim hworker h.joinedWorker
    shouldQuit := h.shouldQuit.trans ⟨fun hbefore => hbefore.trans hle, hquit⟩
    signalled := fun i threads hmain _ => hsignalled i threads hmain
    joined := hjoined }

theorem Sound.setPending (h : s.Sound capacity) (i : Fin n) (b : Bool)
    (hb : b = false → s.receivers i ≠ .polling) :
    Sound capacity { s with pending := Function.update s.pending i b } := by
  refine { h with signalled := fun j threads hmain hj => ?_ }
  show Function.update s.pending i b j = true
  rw [Function.update_apply]
  split
  · next hji =>
      cases b with
      | true => rfl
      | false => exact absurd (hji ▸ hj) (hb rfl)
  · exact h.signalled j threads hmain hj

/-- Before it comes to the threads that receive, it has joined none of them. -/
theorem receivers_of_threads_eq {pc : MainPc n} (hthreads : pc.threads = List.finRange n)
    (i : Fin n) (hi : i ∉ pc.threads) : s.receivers i = .ended :=
  absurd (hthreads ▸ List.mem_finRange i) hi

theorem Sound.stepMain (h : s.Sound capacity) (hstep : s.stepMain = some t) : t.Sound capacity := by
  unfold Shutdown.stepMain at hstep
  split at hstep
  case h_1 hmain =>
    cases hstep
    exact { h with
      published := fun hlate => by simp [MainPc.stage] at hlate
      built := iff_of_false ServerPc.noConfusion Nat.one_ne_zero
      serverEnded := fun hpc => by cases hpc
      joinedServer := fun hlate => by simp [MainPc.stage] at hlate
      joinedHandler := fun hlate => by simp [MainPc.stage] at hlate
      shouldRun := h.shouldRun.trans (by simp [hmain, MainPc.stage])
      joinedWorker := fun hlate => by simp [MainPc.stage] at hlate
      shouldQuit := h.shouldQuit.trans (by simp [hmain, MainPc.stage])
      signalled := fun i threads hpc => by cases hpc
      joined := receivers_of_threads_eq rfl }
  case h_2 hmain =>
    cases hstep
    have hset : Sound capacity { s with gTcpServer := true } :=
      { h with published := fun _ _ => rfl }
    refine hset.setMain ?_ ?_ ?_ (fun _ => rfl) ?_ ?_ ?_ ?_ ?_ ?_ (receivers_of_threads_eq rfl) <;>
      simp [hmain, MainPc.stage]
  case h_3 hmain =>
    obtain ⟨-, heq⟩ := Option.ite_none_right_eq_some.mp hstep
    cases heq
    refine h.setMain ?_ ?_ ?_ ?_ ?_ ?_ ?_ ?_ ?_ ?_ (receivers_of_threads_eq rfl) <;>
      simp [hmain, MainPc.stage]
  case h_4 hmain =>
    obtain ⟨hended, heq⟩ := Option.ite_none_right_eq_some.mp hstep
    cases heq
    refine h.setMain ?_ ?_ ?_ ?_ (fun _ => hended) ?_ ?_ ?_ ?_ ?_ (receivers_of_threads_eq rfl) <;>
      simp [hmain, MainPc.stage]
  case h_5 hmain =>
    obtain ⟨hended, heq⟩ := Option.ite_none_right_eq_some.mp hstep
    cases heq
    refine h.setMain ?_ ?_ ?_ ?_ ?_ (fun _ => hended) ?_ ?_ ?_ ?_ (receivers_of_threads_eq rfl) <;>
      simp [hmain, MainPc.stage]
  case h_6 hmain =>
    cases hstep
    exact { h with
      published := fun _ => h.published (by simp [hmain, MainPc.stage])
      built := h.built.trans (by simp [hmain, MainPc.stage])
      joinedServer := fun _ => h.joinedServer (by simp [hmain, MainPc.stage])
      joinedHandler := fun _ => h.joinedHandler (by simp [hmain, MainPc.stage])
      shouldRun := iff_of_true rfl le_rfl
      workerEnded := fun _ => rfl
      joinedWorker := fun hlate => by simp [MainPc.stage] at hlate
      shouldQuit := h.shouldQuit.trans (by simp [hmain, MainPc.stage])
      signalled := fun i threads hpc => by cases hpc
      joined := receivers_of_threads_eq rfl }
  case h_7 hmain =>
    obtain ⟨hended, heq⟩ := Option.ite_none_right_eq_some.mp hstep
    cases heq
    refine h.setMain ?_ ?_ ?_ ?_ ?_ ?_ ?_ (fun _ => hended) ?_ ?_ (receivers_of_threads_eq rfl) <;>
      simp [hmain, MainPc.stage]
  case h_8 hmain =>
    cases hstep
    refine h.setMain ?_ ?_ ?_ ?_ ?_ ?_ ?_ ?_ ?_ ?_ (receivers_of_threads_eq rfl) <;>
      simp [hmain, MainPc.stage]
  case h_9 hmain =>
    cases hstep
    exact { h with
      published := fun _ => h.published (by simp [hmain, MainPc.stage])
      built := h.built.trans (by simp [hmain, MainPc.stage])
      joinedServer := fun _ => h.joinedServer (by simp [hmain, MainPc.stage])
      joinedHandler := fun _ => h.joinedHandler (by simp [hmain, MainPc.stage])
      shouldRun := h.shouldRun.trans (by simp [hmain, MainPc.stage])
      joinedWorker := fun _ => h.joinedWorker (by simp [hmain, MainPc.stage])
      shouldQuit := iff_of_true rfl le_rfl
      signalled := fun i threads hpc => by cases hpc
      joined := receivers_of_threads_eq rfl }
  case h_10 hmain =>
    cases hstep
    refine h.setMain ?_ ?_ ?_ ?_ ?_ ?_ ?_ ?_ ?_ ?_ (fun i hi => h.joined i ?_) <;>
      simp [hmain, MainPc.stage, MainPc.threads]
  case h_11 i threads hmain =>
    cases hstep
    have hsignalled := h.setPending i true fun hb => by cases hb
    refine hsignalled.setMain ?_ ?_ ?_ ?_ ?_ ?_ ?_ ?_ ?_ ?_ fun j hj => ?_
    case refine_10 =>
      intro j threads' hpc
      cases hpc
      exact Function.update_self _ _ _
    case refine_11 =>
      refine h.joined j ?_
      rw [hmain]
      exact hj
    all_goals simp [hmain, MainPc.stage]
  case h_12 i threads hmain =>
    obtain ⟨hended, heq⟩ := Option.ite_none_right_eq_some.mp hstep
    cases heq
    refine h.setMain ?_ ?_ ?_ ?_ ?_ ?_ ?_ ?_ ?_ ?_ fun j hj => ?_
    case refine_11 =>
      by_cases hji : j = i
      · rw [hji, hended]
      · refine h.joined j ?_
        rw [hmain]
        exact List.not_mem_cons_of_ne_of_not_mem hji hj
    all_goals simp [hmain, MainPc.stage]
  case h_13 => cases hstep

theorem Sound.stepHandler (h : s.Sound capacity) (hstep : s.stepHandler = some t) :
    t.Sound capacity := by
  have hlater : ∀ pc : HandlerPc, s.handler = pc → pc ≠ .ended → s.main.stage < 5 := by
    intro pc hpc hnot
    by_contra hlate
    exact hnot (hpc.symm.trans (h.joinedHandler (Nat.le_of_not_lt hlate)))
  unfold Shutdown.stepHandler at hstep
  split at hstep
  case h_2 htesting =>
    have hrunning := h.running (.inr (.inl htesting))
    have hbefore := hlater _ htesting HandlerPc.noConfusion
    cases hstep
    split
    · exact { h with
        running := fun _ => hrunning
        stopped := fun hpc => by cases hpc
        published := fun _ hpc => by rcases hpc with hpc | hpc <;> cases hpc
        aborted := fun hpc => by cases hpc
        joinedHandler := fun hlate => absurd hbefore (Nat.not_lt_of_le hlate) }
    · exact { h with
        running := fun _ => hrunning
        stopped := fun hpc => by cases hpc
        published := fun _ hpc => by rcases hpc with hpc | hpc <;> cases hpc
        aborted := fun hpc => by cases hpc
        joinedHandler := fun hlate => absurd hbefore (Nat.not_lt_of_le hlate) }
  case h_3 hstopping =>
    have hbefore := hlater _ hstopping HandlerPc.noConfusion
    cases hstep
    exact { h with
      running := fun hpc => by rcases hpc with hpc | hpc | hpc <;> cases hpc
      stopped := fun _ => rfl
      published := fun _ hpc => by rcases hpc with hpc | hpc <;> cases hpc
      serverEnded := fun _ => rfl
      aborted := fun hpc => by cases hpc
      joinedHandler := fun hlate => absurd hbefore (Nat.not_lt_of_le hlate) }
  case h_4 hkilling =>
    have hbefore := hlater _ hkilling HandlerPc.noConfusion
    have hstopped := h.stopped hkilling
    cases hstep
    exact { h with
      running := fun hpc => by rcases hpc with hpc | hpc | hpc <;> cases hpc
      stopped := fun hpc => by cases hpc
      published := fun _ hpc => by rcases hpc with hpc | hpc <;> cases hpc
      built := by
        refine Iff.trans ?_ h.built
        split
        · next hpolling => simp [hpolling]
        · exact Iff.rfl
      serverEnded := fun _ => hstopped
      aborted := fun hpc => by cases hpc
      joinedServer := fun hlate => by rw [h.joinedServer hlate]; rfl
      joinedHandler := fun hlate => absurd hbefore (Nat.not_lt_of_le hlate) }
  case h_5 =>
    cases hstep
    exact { h with
      running := fun hpc => by rcases hpc with hpc | hpc | hpc <;> cases hpc
      stopped := fun hpc => by cases hpc
      published := fun _ hpc => by rcases hpc with hpc | hpc <;> cases hpc
      aborted := fun _ => rfl
      joinedHandler := fun _ => rfl }
  case h_1 | h_6 => cases hstep

theorem Sound.stepServer (h : s.Sound capacity) (hstep : s.stepServer = some t) :
    t.Sound capacity := by
  unfold Shutdown.stepServer at hstep
  have hsound : ∀ pc : ServerPc, s.server ≠ .ended → s.server ≠ .unbuilt → pc ≠ .unbuilt →
      (pc = .ended → s.serverShouldRun = false) → Sound capacity { s with server := pc } := by
    intro pc hnot hbuilt hbuilt' hended
    exact { h with
      built := iff_of_false hbuilt' fun hstage => hbuilt (h.built.mpr hstage)
      serverEnded := hended
      joinedServer := fun hlate => absurd (h.joinedServer hlate) hnot }
  split at hstep
  case h_1 hpc =>
    cases hstep
    refine hsound _ (by rw [hpc]; exact ServerPc.noConfusion)
      (by rw [hpc]; exact ServerPc.noConfusion) ?_ ?_
    · split <;> exact ServerPc.noConfusion
    · cases s.serverShouldRun <;> simp
  case h_2 hpc =>
    cases hstep
    exact hsound _ (by rw [hpc]; exact ServerPc.noConfusion)
      (by rw [hpc]; exact ServerPc.noConfusion) ServerPc.noConfusion fun hended => by cases hended
  case h_3 hpc =>
    cases hstep
    refine hsound _ (by rw [hpc]; exact ServerPc.noConfusion)
      (by rw [hpc]; exact ServerPc.noConfusion) ?_ ?_
    · split <;> exact ServerPc.noConfusion
    · cases s.serverShouldRun <;> simp
  case h_4 | h_5 | h_6 => cases hstep

theorem Sound.stepWorker (h : s.Sound capacity) (hstep : s.stepWorker = some t) :
    t.Sound capacity := by
  unfold Shutdown.stepWorker at hstep
  have hsound : ∀ pc : WorkerPc, s.worker ≠ .ended → (pc = .ended → s.mShouldRun = false) →
      Sound capacity { s with worker := pc } := by
    intro pc hnot hended
    exact { h with
      workerEnded := hended
      joinedWorker := fun hlate => absurd (h.joinedWorker hlate) hnot }
  split at hstep
  case h_1 hpc =>
    cases hstep
    refine hsound _ (by rw [hpc]; exact WorkerPc.noConfusion) ?_
    cases s.mShouldRun <;> simp
  case h_2 hpc =>
    split at hstep
    · cases hstep
      exact { h with size_le := (Nat.sub_le _ _).trans h.size_le }
    · cases hstep
      exact hsound _ (by rw [hpc]; exact WorkerPc.noConfusion) fun h => by cases h
  case h_3 => cases hstep

theorem receivers_setReceiver (s : Shutdown n) (i j : Fin n) (pc : ServingPc) :
    (s.setReceiver i pc).receivers j = if j = i then pc else s.receivers j := by
  show Function.update s.receivers i pc j = _
  rw [Function.update_apply]

/-- A thread that has not ended goes on, and does not go to sleep once it is to quit. -/
theorem Sound.setReceiver (h : s.Sound capacity) {i : Fin n} {pc : ServingPc}
    (hi : s.receivers i ≠ .ended) (hpc : pc = .polling → s.mShouldQuit = false) :
    (s.setReceiver i pc).Sound capacity := by
  refine { h with signalled := fun j threads hmain hj => ?_, joined := fun j hj => ?_ }
  · rw [receivers_setReceiver] at hj
    have hmain' : s.main = .joining j threads := hmain
    split at hj
    · have hquits : s.mShouldQuit = true := h.shouldQuit.mpr (by rw [hmain']; exact Nat.le_refl _)
      cases hquits.symm.trans (hpc hj)
    · exact h.signalled j threads hmain hj
  · rw [receivers_setReceiver]
    split
    · next hji => exact absurd (hji ▸ h.joined j hj) hi
    · exact h.joined j hj

theorem Sound.stepReceiver (h : s.Sound capacity) {i : Fin n}
    (hstep : s.stepReceiver capacity i = some t) : t.Sound capacity := by
  unfold Shutdown.stepReceiver at hstep
  split at hstep
  case h_1 hi =>
    cases hstep
    refine h.setReceiver (by rw [hi]; exact ServingPc.noConfusion) ?_
    cases s.mShouldQuit <;> simp
  case h_2 hi =>
    obtain ⟨-, heq⟩ := Option.ite_none_right_eq_some.mp hstep
    cases heq
    -- It is no longer in `epoll_pwait` when the signal is gone.
    have hgone : (s.setReceiver i (.handling 0)).Sound capacity :=
      h.setReceiver (by rw [hi]; exact ServingPc.noConfusion) fun hpc => by cases hpc
    refine hgone.setPending i false fun _ => ?_
    rw [receivers_setReceiver, if_pos rfl]
    exact ServingPc.noConfusion
  case h_3 hi =>
    cases hstep
    exact h.setReceiver (by rw [hi]; exact ServingPc.noConfusion) fun hpc => by cases hpc
  case h_4 requests hi =>
    obtain ⟨hroom, heq⟩ := Option.ite_none_right_eq_some.mp hstep
    cases heq
    have hpushed : Sound capacity { s with size := s.size + 1 } := { h with size_le := hroom }
    exact hpushed.setReceiver (by rw [hi]; exact ServingPc.noConfusion) fun hpc => by cases hpc
  case h_5 => cases hstep

theorem Sound.step (h : s.Sound capacity) (hstep : s.step capacity action = some t) :
    t.Sound capacity := by
  cases action with
  | main => exact h.stepMain hstep
  | handler => exact h.stepHandler hstep
  | server => exact h.stepServer hstep
  | worker => exact h.stepWorker hstep
  | receiver i => exact h.stepReceiver hstep
  | terminate =>
      obtain ⟨hwaiting, heq⟩ := Option.ite_none_right_eq_some.mp hstep
      cases heq
      exact { h with
        running := fun _ => h.running (.inl hwaiting)
        stopped := fun hpc => by cases hpc
        published := fun hlate _ => h.published hlate (.inl hwaiting)
        aborted := fun hpc => by cases hpc
        joinedHandler := fun hlate => by cases hwaiting.symm.trans (h.joinedHandler hlate) }
  | connect =>
      obtain ⟨hpolling, heq⟩ := Option.ite_none_right_eq_some.mp hstep
      cases heq
      exact { h with
        built := iff_of_false ServerPc.noConfusion fun hstage => by
          cases hpolling.symm.trans (h.built.mpr hstage)
        serverEnded := fun hpc => by cases hpc
        joinedServer := fun hlate => by cases hpolling.symm.trans (h.joinedServer hlate) }
  | noPort =>
      obtain ⟨hserving, heq⟩ := Option.ite_none_right_eq_some.mp hstep
      cases heq
      refine h.setMain ?_ ?_ ?_ ?_ ?_ ?_ ?_ ?_ ?_ ?_ (receivers_of_threads_eq rfl) <;>
        simp [hserving, MainPc.stage]
  | events i requests =>
      obtain ⟨hpolling, heq⟩ := Option.ite_none_right_eq_some.mp hstep
      cases heq
      exact h.setReceiver (by rw [hpolling]; exact ServingPc.noConfusion) fun hpc => by cases hpc
  | signal i =>
      obtain ⟨-, heq⟩ := Option.ite_none_left_eq_some.mp hstep
      cases heq
      exact h.setPending i true fun hb => by cases hb
  | request =>
      obtain ⟨hroom, heq⟩ := Option.ite_none_right_eq_some.mp hstep
      cases heq
      exact { h with size_le := hroom }

/-! ## When a step is in time -/

/-- Nothing has gone wrong. -/
def Ok (capacity : Nat) (s : Shutdown n) : Prop := s.ServerStops ∧ s.HasRoom capacity

theorem remaining_setReceiver (s : Shutdown n) (i : Fin n) (pc : ServingPc) :
    (s.setReceiver i pc).remaining + (s.receivers i).requests = s.remaining + pc.requests :=
  Progress.sum_update ServingPc.requests s.receivers i pc

/-- What is in the queue and what is to come there stay the same. -/
theorem HasRoom.of_eq (h : s.HasRoom capacity) (hgone : t.WorkerGone → s.WorkerGone)
    (hsum : t.size + t.remaining = s.size + s.remaining) : t.HasRoom capacity := by
  intro ht
  rw [hsum]
  exact h (hgone ht)

theorem Sound.stepMain_ok_iff (h : s.Sound capacity) (hok : s.Ok capacity)
    (hstep : s.stepMain = some t) : t.Ok capacity ↔ s.InTime capacity .main := by
  obtain ⟨hstops, hroom⟩ := hok
  unfold Shutdown.stepMain at hstep
  split at hstep
  case h_1 hmain =>
    cases hstep
    refine iff_of_true ⟨fun hdone => ⟨(hstops hdone).1, ServerPc.noConfusion,
      ServerPc.noConfusion⟩, hroom⟩ fun hpc => ?_
    cases hmain.symm.trans hpc
  case h_6 hmain =>
    cases hstep
    have hruns : s.mShouldRun = true := by
      rw [← Bool.not_eq_false, h.shouldRun, hmain]
      simp [MainPc.stage]
    have hnot : s.worker ≠ .ended := fun hended => by cases hruns.symm.trans (h.workerEnded hended)
    constructor
    · rintro ⟨-, hroom'⟩ - htesting
      exact hroom' (.inr ⟨htesting, rfl⟩)
    · intro hin
      refine ⟨hstops, fun hgone => ?_⟩
      rcases hgone with hended | ⟨htesting, -⟩
      · exact absurd hended hnot
      · exact hin hmain htesting
  case h_13 => cases hstep
  case h_3 hmain | h_4 hmain | h_5 hmain | h_7 hmain =>
    obtain ⟨-, heq⟩ := Option.ite_none_right_eq_some.mp hstep
    cases heq
    refine iff_of_true ⟨hstops, hroom⟩ fun hpc => ?_
    cases hmain.symm.trans hpc
  case h_12 hmain =>
    obtain ⟨-, heq⟩ := Option.ite_none_right_eq_some.mp hstep
    cases heq
    refine iff_of_true ⟨hstops, hroom⟩ fun hpc => ?_
    cases hmain.symm.trans hpc
  case h_2 hmain | h_8 hmain | h_9 hmain | h_10 hmain | h_11 hmain =>
    cases hstep
    refine iff_of_true ⟨hstops, hroom⟩ fun hpc => ?_
    cases hmain.symm.trans hpc

theorem Sound.stepHandler_ok_iff (h : s.Sound capacity) (hok : s.Ok capacity)
    (hstep : s.stepHandler = some t) : t.Ok capacity ↔ s.InTime capacity .handler := by
  obtain ⟨hstops, hroom⟩ := hok
  unfold Shutdown.stepHandler at hstep
  split at hstep
  case h_1 | h_6 => cases hstep
  case h_2 htesting =>
    cases hstep
    have hrunning := h.running (.inr (.inl htesting))
    cases hserver : s.gTcpServer with
    | true =>
        refine iff_of_true ⟨fun hdone => (by cases hdone), hroom⟩ ⟨fun _ => hserver, fun hpc => ?_⟩
        cases htesting.symm.trans hpc
    | false =>
        refine iff_of_false (fun hok => ?_) fun hin => ?_
        · cases hrunning.symm.trans (hok.1 rfl).1
        · cases hserver.symm.trans (hin.1 htesting)
  case h_3 hstopping =>
    cases hstep
    refine iff_of_true ⟨fun hdone => (by cases hdone), hroom⟩ ⟨fun hpc => ?_, fun hpc => ?_⟩
    · cases hstopping.symm.trans hpc
    · cases hstopping.symm.trans hpc
  case h_4 hkilling =>
    cases hstep
    have hstopped := h.stopped hkilling
    constructor
    · rintro ⟨hstops', -⟩
      refine ⟨fun hpc => (by cases hkilling.symm.trans hpc), fun _ hcalling => ?_⟩
      have hcalls := (hstops' rfl).2.1
      simp [hcalling] at hcalls
    · intro hin
      refine ⟨fun _ => ⟨hstopped, ?_⟩, hroom⟩
      have hnot := hin.2 hkilling
      show (if s.server = .polling then ServerPc.returned else s.server) ≠ .calling ∧
        (if s.server = .polling then ServerPc.returned else s.server) ≠ .polling
      split
      · exact ⟨ServerPc.noConfusion, ServerPc.noConfusion⟩
      · next hpolling => exact ⟨hnot, hpolling⟩
  case h_5 haborting =>
    cases hstep
    refine iff_of_true ⟨fun _ => hstops (by rw [haborting]; rfl), hroom⟩
      ⟨fun hpc => ?_, fun hpc => ?_⟩
    · cases haborting.symm.trans hpc
    · cases haborting.symm.trans hpc

/-- Once it is to stop, the thread of the `TcpServer` does not wait again. -/
theorem ServerStops.step (h : s.ServerStops) (hstep : s.stepServer = some t) : t.ServerStops := by
  unfold Shutdown.stepServer at hstep
  split at hstep
  case h_1 =>
    cases hstep
    intro hdone
    obtain ⟨hstopped, -⟩ := h hdone
    refine ⟨hstopped, ?_⟩
    simp [hstopped]
  case h_2 hcalling =>
    cases hstep
    exact fun hdone => absurd hcalling (h hdone).2.1
  case h_3 =>
    cases hstep
    intro hdone
    obtain ⟨hstopped, -⟩ := h hdone
    refine ⟨hstopped, ?_⟩
    simp [hstopped]
  case h_4 | h_5 | h_6 => cases hstep

theorem stepWorker_ok_iff (hok : s.Ok capacity) (hstep : s.stepWorker = some t) :
    t.Ok capacity ↔ s.InTime capacity .worker := by
  obtain ⟨hstops, hroom⟩ := hok
  unfold Shutdown.stepWorker at hstep
  split at hstep
  case h_1 htesting =>
    cases hstep
    refine iff_of_true ⟨hstops, fun hgone => ?_⟩ fun hpc => ?_
    · refine hroom (.inr ⟨htesting, ?_⟩)
      rcases hgone with hended | ⟨hpc, -⟩
      · simpa using hended
      · simp only at hpc
        split at hpc <;> cases hpc
    · cases htesting.symm.trans hpc
  case h_2 hdraining =>
    split at hstep
    · next hsize =>
        cases hstep
        refine iff_of_true ⟨hstops, fun hgone => ?_⟩ fun _ hzero => ?_
        · rcases hgone with hpc | ⟨hpc, -⟩
          · cases hdraining.symm.trans hpc
          · cases hdraining.symm.trans hpc
        · exact absurd hsize (by rw [hzero]; exact Nat.lt_irrefl 0)
    · next hsize =>
        cases hstep
        have hzero : s.size = 0 := Nat.eq_zero_of_not_pos hsize
        constructor
        · rintro ⟨-, hroom'⟩ - - hstopped
          have hle : s.size + s.remaining ≤ capacity := hroom' (.inr ⟨rfl, hstopped⟩)
          rwa [hzero, Nat.zero_add] at hle
        · intro hin
          refine ⟨hstops, fun hgone => ?_⟩
          rcases hgone with hpc | ⟨-, hstopped⟩
          · cases hpc
          · show s.size + s.remaining ≤ capacity
            rw [hzero, Nat.zero_add]
            exact hin hdraining hzero hstopped
  case h_3 => cases hstep

/-- A request is in the queue when it is no longer being handled. -/
theorem sum_stepReceiver {i : Fin n} (hstep : s.stepReceiver capacity i = some t) :
    t.size + t.remaining = s.size + s.remaining := by
  unfold Shutdown.stepReceiver at hstep
  split at hstep
  case h_1 hi =>
    cases hstep
    have hmove := remaining_setReceiver s i (if s.mShouldQuit then .ended else .polling)
    have hnone : (if s.mShouldQuit then ServingPc.ended else .polling).requests = 0 := by
      split <;> rfl
    rw [hi, hnone] at hmove
    exact congrArg (s.size + ·) hmove
  case h_2 hi =>
    obtain ⟨-, heq⟩ := Option.ite_none_right_eq_some.mp hstep
    cases heq
    have hmove := remaining_setReceiver s i (.handling 0)
    rw [hi] at hmove
    exact congrArg (s.size + ·) hmove
  case h_3 hi =>
    cases hstep
    have hmove := remaining_setReceiver s i .testing
    rw [hi] at hmove
    exact congrArg (s.size + ·) hmove
  case h_4 requests hi =>
    obtain ⟨-, heq⟩ := Option.ite_none_right_eq_some.mp hstep
    cases heq
    have hmove := remaining_setReceiver s i (.handling requests)
    rw [hi] at hmove
    show s.size + 1 + (s.setReceiver i (.handling requests)).remaining = _
    simp only [ServingPc.requests] at hmove
    omega
  case h_5 => cases hstep

theorem Ok.stepReceiver (h : s.Ok capacity) {i : Fin n}
    (hstep : s.stepReceiver capacity i = some t) : t.Ok capacity := by
  have hsum := sum_stepReceiver hstep
  obtain ⟨size, receivers, pending, rfl⟩ := eq_of_stepReceiver hstep
  exact ⟨h.1, h.2.of_eq id hsum⟩

/-- Exactly the steps that are in time keep everything in order. -/
theorem Sound.ok_iff_inTime (h : s.Sound capacity) (hok : s.Ok capacity)
    (hstep : s.step capacity action = some t) : t.Ok capacity ↔ s.InTime capacity action := by
  cases action with
  | main => exact h.stepMain_ok_iff hok hstep
  | handler => exact h.stepHandler_ok_iff hok hstep
  | server =>
      have hstops := hok.1.step hstep
      obtain ⟨pc, rfl⟩ := eq_of_stepServer hstep
      exact iff_of_true ⟨hstops, hok.2⟩ trivial
  | worker => exact stepWorker_ok_iff hok hstep
  | receiver i => exact iff_of_true (hok.stepReceiver hstep) trivial
  | terminate =>
      obtain ⟨-, heq⟩ := Option.ite_none_right_eq_some.mp hstep
      cases heq
      exact iff_of_true ⟨fun hdone => (by cases hdone), hok.2⟩ trivial
  | connect =>
      obtain ⟨hpolling, heq⟩ := Option.ite_none_right_eq_some.mp hstep
      cases heq
      exact iff_of_true ⟨fun hdone => absurd hpolling (hok.1 hdone).2.2, hok.2⟩ trivial
  | noPort =>
      obtain ⟨-, heq⟩ := Option.ite_none_right_eq_some.mp hstep
      cases heq
      exact iff_of_true hok trivial
  | events i requests =>
      obtain ⟨hpolling, heq⟩ := Option.ite_none_right_eq_some.mp hstep
      cases heq
      have hmove := remaining_setReceiver s i (.handling requests)
      rw [hpolling] at hmove
      have hremaining : (s.setReceiver i (.handling requests)).remaining = s.remaining + requests :=
        hmove
      constructor
      · intro ht hgone
        have hle : s.size + (s.setReceiver i (.handling requests)).remaining ≤ capacity :=
          ht.2 hgone
        omega
      · intro hin
        refine ⟨hok.1, fun hgone => ?_⟩
        have hle : s.size + s.remaining + requests ≤ capacity := hin hgone
        show s.size + (s.setReceiver i (.handling requests)).remaining ≤ capacity
        omega
  | signal i =>
      obtain ⟨-, heq⟩ := Option.ite_none_left_eq_some.mp hstep
      cases heq
      exact iff_of_true hok trivial
  | request =>
      obtain ⟨-, heq⟩ := Option.ite_none_right_eq_some.mp hstep
      cases heq
      constructor
      · intro ht hgone
        have hle : s.size + 1 + s.remaining ≤ capacity := ht.2 hgone
        omega
      · intro hin
        refine ⟨hok.1, fun hgone => ?_⟩
        have hle : s.size + s.remaining + 1 ≤ capacity := hin hgone
        show s.size + 1 + s.remaining ≤ capacity
        omega

/-! ## What is lost stays lost -/

theorem ServerStops.of_stepMain (h : s.Sound capacity) (hstep : s.stepMain = some t)
    (ht : t.ServerStops) : s.ServerStops := by
  unfold Shutdown.stepMain at hstep
  split at hstep
  case h_1 hmain =>
    cases hstep
    have hserver : s.server = .unbuilt := h.built.mpr (by rw [hmain]; rfl)
    intro hdone
    rw [hserver]
    exact ⟨(ht hdone).1, ServerPc.noConfusion, ServerPc.noConfusion⟩
  case h_3 | h_4 | h_5 | h_7 | h_12 =>
    obtain ⟨-, heq⟩ := Option.ite_none_right_eq_some.mp hstep
    cases heq
    exact ht
  case h_13 => cases hstep
  all_goals
    cases hstep
    exact ht

theorem ServerStops.of_stepHandler (hstep : s.stepHandler = some t) (ht : t.ServerStops) :
    s.ServerStops := by
  intro hdone
  unfold Shutdown.stepHandler at hstep
  split at hstep
  case h_5 =>
    cases hstep
    exact ht rfl
  case h_1 | h_6 => cases hstep
  case h_2 hpc | h_3 hpc | h_4 hpc =>
    rw [hpc] at hdone
    cases hdone

theorem ServerStops.of_stepServer (hstep : s.stepServer = some t) (ht : t.ServerStops) :
    s.ServerStops := by
  intro hdone
  unfold Shutdown.stepServer at hstep
  split at hstep
  case h_1 hpc =>
    cases hstep
    rw [hpc]
    exact ⟨(ht hdone).1, ServerPc.noConfusion, ServerPc.noConfusion⟩
  case h_2 =>
    cases hstep
    exact absurd rfl (ht hdone).2.2
  case h_3 hpc =>
    cases hstep
    rw [hpc]
    exact ⟨(ht hdone).1, ServerPc.noConfusion, ServerPc.noConfusion⟩
  case h_4 | h_5 | h_6 => cases hstep

/-- Whatever the threads do by themselves. -/
theorem ServerStops.of_step (h : s.Sound capacity) (hinside : action.isOutside = false)
    (hstep : s.step capacity action = some t) (ht : t.ServerStops) : s.ServerStops := by
  cases action with
  | main => exact ht.of_stepMain h hstep
  | handler => exact ht.of_stepHandler hstep
  | server => exact ht.of_stepServer hstep
  | worker =>
      obtain ⟨pc, size, rfl⟩ := eq_of_stepWorker hstep
      exact ht
  | receiver i =>
      obtain ⟨size, receivers, pending, rfl⟩ := eq_of_stepReceiver hstep
      exact ht
  | _ => cases hinside

/-- Without the worker thread, what is in the queue and what is to come there stay the same. -/
theorem sum_of_gone (hgone : s.WorkerGone) (hinside : action.isOutside = false)
    (hstep : s.step capacity action = some t) :
    t.WorkerGone ∧ t.size + t.remaining = s.size + s.remaining := by
  cases action with
  | main =>
      simp only [Shutdown.step, Shutdown.stepMain] at hstep
      split at hstep
      case h_6 =>
        cases hstep
        exact ⟨hgone.imp_right fun hpc => ⟨hpc.1, rfl⟩, rfl⟩
      case h_3 | h_4 | h_5 | h_7 | h_12 =>
        obtain ⟨-, heq⟩ := Option.ite_none_right_eq_some.mp hstep
        cases heq
        exact ⟨hgone, rfl⟩
      case h_13 => cases hstep
      all_goals
        cases hstep
        exact ⟨hgone, rfl⟩
  | handler =>
      simp only [Shutdown.step, Shutdown.stepHandler] at hstep
      split at hstep
      case h_1 | h_6 => cases hstep
      all_goals
        cases hstep
        exact ⟨hgone, rfl⟩
  | server =>
      obtain ⟨pc, rfl⟩ := eq_of_stepServer hstep
      exact ⟨hgone, rfl⟩
  | worker =>
      simp only [Shutdown.step, Shutdown.stepWorker] at hstep
      rcases hgone with hended | ⟨htesting, hstopped⟩
      · rw [hended] at hstep
        cases hstep
      · simp only [htesting, hstopped] at hstep
        cases hstep
        exact ⟨.inl rfl, rfl⟩
  | receiver i =>
      have hsum := sum_stepReceiver hstep
      obtain ⟨size, receivers, pending, rfl⟩ := eq_of_stepReceiver hstep
      exact ⟨hgone, hsum⟩
  | _ => cases hinside

theorem Ok.of_step (h : s.Sound capacity) (hinside : action.isOutside = false)
    (hstep : s.step capacity action = some t) (ht : t.Ok capacity) : s.Ok capacity := by
  refine ⟨ht.1.of_step h hinside hstep, fun hgone => ?_⟩
  obtain ⟨hgone', hsum⟩ := sum_of_gone hgone hinside hstep
  rw [← hsum]
  exact ht.2 hgone'

theorem remaining_eq_zero (h : ∀ i, (s.receivers i).requests = 0) : s.remaining = 0 :=
  Finset.sum_eq_zero fun i _ => h i

/-- Where all have been joined, nothing has gone wrong. -/
theorem Sound.ok_of_closing (h : s.Sound capacity) (hmain : s.main = .closing) : s.Ok capacity := by
  have hserver : s.server = .ended := h.joinedServer (by simp [hmain, MainPc.stage])
  have hended : ∀ i, (s.receivers i).requests = 0 := by
    intro i
    rw [h.joined i (by rw [hmain]; exact List.not_mem_nil)]
    rfl
  refine ⟨fun _ => ⟨h.serverEnded hserver, ?_, ?_⟩, fun _ => ?_⟩
  · rw [hserver]
    exact ServerPc.noConfusion
  · rw [hserver]
    exact ServerPc.noConfusion
  · rw [remaining_eq_zero hended]
    exact h.size_le

theorem Sound.ok_of_canClose (h : s.Sound capacity) (hclose : s.CanClose capacity) :
    s.Ok capacity := by
  obtain ⟨t, hreaches, hmain⟩ := hclose
  induction hreaches using Relation.ReflTransGen.head_induction_on with
  | refl => exact h.ok_of_closing hmain
  | head hstep _ ih =>
      obtain ⟨action, hinside, haction⟩ := hstep
      exact (ih (h.step haction)).of_step h hinside haction

/-! ## The way to the end -/

/-- A state from which the end can be reached. -/
def Good (capacity : Nat) (s : Shutdown n) : Prop :=
  s.Sound capacity ∧ s.Ok capacity ∧ s.handler ≠ .waiting

theorem Good.step (h : s.Good capacity) (hin : s.InTime capacity action)
    (hstep : s.step capacity action = some t) : t.Good capacity :=
  ⟨h.1.step hstep, (h.1.ok_iff_inTime h.2.1 hstep).mpr hin, handler_ne_waiting h.2.2 hstep⟩

/-- By themselves the threads can get to a good state of which `P` holds. -/
def Leads (capacity : Nat) (P : Shutdown n → Prop) (s : Shutdown n) : Prop :=
  ∃ t, Relation.ReflTransGen (Steps capacity) s t ∧ t.Good capacity ∧ P t

variable {P Q : Shutdown n → Prop}

theorem Good.leads_refl (h : s.Good capacity) (hP : P s) : s.Leads capacity P := ⟨s, .refl, h, hP⟩

theorem Good.leads_step (h : s.Good capacity) (action : ShutdownAction n)
    (hinside : action.isOutside = false)
    (hin : s.InTime capacity action) (hstep : s.step capacity action = some t) (hP : P t) :
    s.Leads capacity P :=
  ⟨t, .single ⟨action, hinside, hstep⟩, h.step hin hstep, hP⟩

theorem Leads.trans (h : s.Leads capacity P)
    (hnext : ∀ t, t.Good capacity → P t → t.Leads capacity Q) : s.Leads capacity Q := by
  obtain ⟨t, hst, ht, hP⟩ := h
  obtain ⟨u, htu, hu⟩ := hnext t ht hP
  exact ⟨u, hst.trans htu, hu⟩

/-- With something that falls, as long as it can be made to fall. -/
theorem Good.leads (h : s.Good capacity) (measure : Shutdown n → Nat) (hP : P s)
    (hnearer : ∀ s : Shutdown n, s.Good capacity → P s → ¬ Q s →
      s.Leads capacity fun t => P t ∧ measure t < measure s) :
    s.Leads capacity fun t => P t ∧ Q t := by
  have hgoal : ∃ t, Relation.ReflTransGen (Steps capacity) s t ∧ (t.Good capacity ∧ P t) ∧ Q t := by
    refine Progress.exists_goal measure (fun u hu hQ => ?_) ⟨h, hP⟩
    obtain ⟨t, hut, ht, hPt, hlt⟩ := hnearer u hu.1 hu.2 hQ
    exact ⟨t, hut, ⟨ht, hPt⟩, hlt⟩
  obtain ⟨t, hst, ⟨ht, hPt⟩, hQ⟩ := hgoal
  exact ⟨t, hst, ht, hPt, hQ⟩

/-- The thread of the `TcpServer` is given the time to call `poll`. -/
theorem Good.leads_handler (h : s.Good capacity) (hstage : 2 ≤ s.main.stage) :
    s.Leads capacity fun t => t.main = s.main ∧ t.handler = .ended := by
  refine h.leads (fun t => 2 * t.handler.rank + if t.server = .calling then 1 else 0) rfl ?_
  intro u hu hmain hnot
  rw [← hmain] at hstage
  cases hhandler : u.handler with
  | waiting => exact absurd hhandler hu.2.2
  | testing =>
      have hserver := hu.1.published hstage (.inr hhandler)
      have hstep : u.step capacity .handler = some { u with handler := .stopping } := by
        simp [Shutdown.step, Shutdown.stepHandler, hhandler, hserver]
      refine hu.leads_step .handler rfl ⟨fun _ => hserver, fun hpc => ?_⟩ hstep ⟨hmain, ?_⟩
      · cases hhandler.symm.trans hpc
      · simp [HandlerPc.rank]
  | stopping =>
      have hstep : u.step capacity .handler =
          some { u with serverShouldRun := false, handler := .killing } := by
        simp [Shutdown.step, Shutdown.stepHandler, hhandler]
      refine hu.leads_step .handler rfl ⟨fun hpc => ?_, fun hpc => ?_⟩ hstep ⟨hmain, ?_⟩
      · cases hhandler.symm.trans hpc
      · cases hhandler.symm.trans hpc
      · simp [HandlerPc.rank]
  | killing =>
      by_cases hserver : u.server = .calling
      · have hstep : u.step capacity .server = some { u with server := .polling } := by
          simp [Shutdown.step, Shutdown.stepServer, hserver]
        refine hu.leads_step .server rfl trivial hstep ⟨hmain, ?_⟩
        simp [hserver, hhandler]
      · have hstep : u.step capacity .handler =
            some
              { u with
                server := if u.server = .polling then .returned else u.server
                gTcpServer := false
                handler := .aborting } := by
          simp [Shutdown.step, Shutdown.stepHandler, hhandler]
        refine hu.leads_step .handler rfl ⟨fun hpc => ?_, fun _ => hserver⟩ hstep ⟨hmain, ?_⟩
        · cases hhandler.symm.trans hpc
        · have hafter :
              (if u.server = .polling then ServerPc.returned else u.server) ≠ .calling := by
            split
            · exact ServerPc.noConfusion
            · exact hserver
          simp [HandlerPc.rank, hserver, hafter]
  | aborting =>
      have hstep : u.step capacity .handler =
          some { u with aborted := true, handler := .ended } := by
        simp [Shutdown.step, Shutdown.stepHandler, hhandler]
      refine hu.leads_step .handler rfl ⟨fun hpc => ?_, fun hpc => ?_⟩ hstep ⟨hmain, ?_⟩
      · cases hhandler.symm.trans hpc
      · cases hhandler.symm.trans hpc
      · simp [HandlerPc.rank]
  | ended => exact absurd hhandler hnot

theorem Good.leads_server (h : s.Good capacity) (hstage : 1 ≤ s.main.stage)
    (hhandler : s.handler = .ended) :
    s.Leads capacity fun t => t.main = s.main ∧ t.server = .ended := by
  obtain ⟨hstopped, hcalling, hpolling⟩ := h.2.1.1 (by rw [hhandler]; rfl)
  cases hserver : s.server with
  | unbuilt =>
      have hzero := h.1.built.mp hserver
      omega
  | calling => exact absurd hserver hcalling
  | polling => exact absurd hserver hpolling
  | testing | returned =>
      have hstep : s.step capacity .server = some { s with server := .ended } := by
        simp [Shutdown.step, Shutdown.stepServer, hserver, hstopped]
      exact h.leads_step .server rfl trivial hstep ⟨rfl, rfl⟩
  | ended => exact h.leads_refl ⟨rfl, hserver⟩

theorem exists_of_remaining (h : s.remaining ≠ 0) :
    ∃ i requests, s.receivers i = .handling (requests + 1) := by
  obtain ⟨i, -, hi⟩ := Finset.exists_ne_zero_of_sum_ne_zero h
  cases hpc : s.receivers i with
  | handling requests =>
      cases requests with
      | zero =>
          rw [hpc] at hi
          exact absurd rfl hi
      | succ requests => exact ⟨i, requests, hpc⟩
  | _ =>
      rw [hpc] at hi
      exact absurd rfl hi

/-- While the worker thread executes requests, all of them can be executed. -/
theorem Good.leads_drained (hcapacity : 0 < capacity) (h : s.Good capacity)
    (hworker : s.worker = .draining) :
    s.Leads capacity fun t =>
      (t.main = s.main ∧ t.mShouldRun = s.mShouldRun ∧ t.worker = .draining) ∧
        (t.size = 0 ∧ t.remaining = 0) := by
  refine h.leads (fun t => 3 * t.remaining + 2 * t.size) ⟨rfl, rfl, hworker⟩ ?_
  rintro u hu ⟨hmain, hruns, hworker⟩ hnot
  by_cases hsize : u.size = 0
  · have hsome : u.remaining ≠ 0 := fun hzero => hnot ⟨hsize, hzero⟩
    obtain ⟨i, requests, hi⟩ := exists_of_remaining hsome
    have hstep : u.step capacity (.receiver i) =
        some (setReceiver { u with size := u.size + 1 } i (.handling requests)) := by
      simp [Shutdown.step, Shutdown.stepReceiver, hi, hsize, hcapacity]
    refine hu.leads_step (.receiver i) rfl trivial hstep ⟨⟨hmain, hruns, hworker⟩, ?_⟩
    have hmove : (setReceiver u i (.handling requests)).remaining + (requests + 1) =
        u.remaining + requests := by
      have hmoved := remaining_setReceiver u i (.handling requests)
      rwa [hi] at hmoved
    have hsame : (setReceiver { u with size := u.size + 1 } i (.handling requests)).remaining =
        (setReceiver u i (.handling requests)).remaining := rfl
    have hsize' : (setReceiver { u with size := u.size + 1 } i (.handling requests)).size =
        u.size + 1 := rfl
    omega
  · have hpos : 0 < u.size := Nat.pos_of_ne_zero hsize
    have hstep : u.step capacity .worker = some { u with size := u.size - 1 } := by
      simp [Shutdown.step, Shutdown.stepWorker, hworker, hpos]
    refine hu.leads_step .worker rfl (fun _ hzero => absurd hzero hsize) hstep
      ⟨⟨hmain, hruns, hworker⟩, ?_⟩
    show 3 * u.remaining + 2 * (u.size - 1) < _
    omega

/-- Before it stops, the worker thread has another look at the queue. -/
theorem Good.leads_worker (hcapacity : 0 < capacity) (h : s.Good capacity)
    (hstopped : s.mShouldRun = false) :
    s.Leads capacity fun t => t.main = s.main ∧ t.worker = .ended := by
  have hlast : ∀ u : Shutdown n, u.Good capacity → u.mShouldRun = false → u.worker = .testing →
      u.Leads capacity fun t => t.main = u.main ∧ t.worker = .ended := by
    intro u hu hruns hworker
    have hstep : u.step capacity .worker = some { u with worker := .ended } := by
      simp [Shutdown.step, Shutdown.stepWorker, hworker, hruns]
    refine hu.leads_step .worker rfl (fun hpc => ?_) hstep ⟨rfl, rfl⟩
    cases hworker.symm.trans hpc
  cases hworker : s.worker with
  | testing => exact hlast s h hstopped hworker
  | ended => exact h.leads_refl ⟨rfl, hworker⟩
  | draining =>
      refine (h.leads_drained hcapacity hworker).trans ?_
      rintro u hu ⟨⟨hmain, hruns, hdraining⟩, hsize, hremaining⟩
      have hstep : u.step capacity .worker = some { u with worker := .testing } := by
        simp [Shutdown.step, Shutdown.stepWorker, hdraining, hsize]
      have hin : u.InTime capacity .worker := fun _ _ _ => by
        rw [hremaining]
        exact Nat.zero_le _
      have htested := hu.step hin hstep
      obtain ⟨t, hut, ht, hmain', hended⟩ := hlast _ htested (hruns.trans hstopped) rfl
      exact ⟨t, .head ⟨.worker, rfl, hstep⟩ hut, ht, hmain'.trans hmain, hended⟩

/-- The thread that is joined has been signalled, and there is room for its requests. -/
theorem Good.leads_receiver (h : s.Good capacity) {i : Fin n} {threads : List (Fin n)}
    (hmain : s.main = .joining i threads) :
    s.Leads capacity fun t => t.main = .joining i threads ∧ t.receivers i = .ended := by
  refine h.leads (fun t => (t.receivers i).rank) hmain ?_
  intro u hu hjoining hnot
  have hquits : u.mShouldQuit = true := hu.1.shouldQuit.mpr (by simp [hjoining, MainPc.stage])
  have hworker : u.worker = .ended := hu.1.joinedWorker (by simp [hjoining, MainPc.stage])
  cases hi : u.receivers i with
  | testing =>
      have hstep : u.step capacity (.receiver i) = some (u.setReceiver i .ended) := by
        simp [Shutdown.step, Shutdown.stepReceiver, hi, hquits]
      refine hu.leads_step (.receiver i) rfl trivial hstep ⟨hjoining, ?_⟩
      rw [receivers_setReceiver, if_pos rfl]
      decide
  | polling =>
      have hpending := hu.1.signalled i threads hjoining hi
      have hstep : u.step capacity (.receiver i) =
          some (setReceiver { u with pending := Function.update u.pending i false } i
            (.handling 0)) := by
        simp [Shutdown.step, Shutdown.stepReceiver, hi, hpending]
      refine hu.leads_step (.receiver i) rfl trivial hstep ⟨hjoining, ?_⟩
      rw [receivers_setReceiver, if_pos rfl]
      decide
  | handling requests =>
      cases requests with
      | zero =>
          have hstep : u.step capacity (.receiver i) = some (u.setReceiver i .testing) := by
            simp [Shutdown.step, Shutdown.stepReceiver, hi]
          refine hu.leads_step (.receiver i) rfl trivial hstep ⟨hjoining, ?_⟩
          rw [receivers_setReceiver, if_pos rfl]
          decide
      | succ requests =>
          have hroom : u.size < capacity := by
            have hle := hu.2.1.2 (.inl hworker)
            have hone : (u.receivers i).requests ≤ u.remaining :=
              Finset.single_le_sum (f := fun i => (u.receivers i).requests)
                (fun _ _ => Nat.zero_le _) (Finset.mem_univ i)
            rw [hi] at hone
            simp only [ServingPc.requests] at hone
            omega
          have hstep : u.step capacity (.receiver i) =
              some (setReceiver { u with size := u.size + 1 } i (.handling requests)) := by
            simp [Shutdown.step, Shutdown.stepReceiver, hi, hroom]
          refine hu.leads_step (.receiver i) rfl trivial hstep ⟨hjoining, ?_⟩
          rw [receivers_setReceiver, if_pos rfl]
          exact Nat.lt_succ_self _
  | ended => exact absurd hi hnot

/-- Nothing is being handled when `main` stops the worker thread. -/
theorem Good.leads_stopped (hcapacity : 0 < capacity) (h : s.Good capacity)
    (hmain : s.main = .stoppingWorker) : s.Leads capacity fun t => t.main = .joiningWorker := by
  have hruns : s.mShouldRun = true := by
    rw [← Bool.not_eq_false, h.1.shouldRun, hmain]
    simp [MainPc.stage]
  have hdraining : s.Leads capacity fun t => t.main = .stoppingWorker ∧ t.worker = .draining := by
    cases hworker : s.worker with
    | testing =>
        have hstep : s.step capacity .worker = some { s with worker := .draining } := by
          simp [Shutdown.step, Shutdown.stepWorker, hworker, hruns]
        refine h.leads_step .worker rfl (fun hpc => ?_) hstep ⟨hmain, rfl⟩
        cases hworker.symm.trans hpc
    | draining => exact h.leads_refl ⟨hmain, hworker⟩
    | ended => cases hruns.symm.trans (h.1.workerEnded hworker)
  refine hdraining.trans fun u hu hthen => (hu.leads_drained hcapacity hthen.2).trans ?_
  rintro v hv ⟨⟨hsame, -, hdrains⟩, -⟩
  have hstep : v.step capacity .main =
      some { v with mShouldRun := false, main := .joiningWorker } := by
    simp [Shutdown.step, Shutdown.stepMain, hsame, hthen.1]
  refine hv.leads_step .main rfl (fun _ htesting => ?_) hstep rfl
  cases hdrains.symm.trans htesting

/-- Whatever `main` waits for, it gets. -/
theorem Good.leads_main (hcapacity : 0 < capacity) (h : s.Good capacity)
    (hnot : s.main ≠ .closing) : s.Leads capacity fun t => t.main.rank < s.main.rank := by
  have hmoves : ∀ {u v : Shutdown n}, u.Good capacity → u.main ≠ .stoppingWorker →
      u.step capacity .main = some v → v.main.rank < s.main.rank →
      u.Leads capacity fun t => t.main.rank < s.main.rank :=
    fun hu hearlier hstep hlt =>
      hu.leads_step .main rfl (fun hpc => absurd hpc hearlier) hstep hlt
  cases hmain : s.main with
  | building =>
      have hstep : s.step capacity .main =
          some { s with server := .testing, main := .publishing } := by
        simp [Shutdown.step, Shutdown.stepMain, hmain]
      rw [hmain] at hmoves
      exact hmoves h (by simp [hmain]) hstep (by simp [MainPc.rank, MainPc.stage])
  | publishing =>
      have hstep : s.step capacity .main =
          some { s with gTcpServer := true, main := .serving } := by
        simp [Shutdown.step, Shutdown.stepMain, hmain]
      rw [hmain] at hmoves
      exact hmoves h (by simp [hmain]) hstep (by simp [MainPc.rank, MainPc.stage])
  | serving =>
      rw [hmain] at hmoves
      refine (h.leads_handler (by simp [hmain, MainPc.stage])).trans fun u hu hthen => ?_
      have hserving : u.main = .serving := hthen.1.trans hmain
      have hstep : u.step capacity .main = some { u with main := .joiningServer } := by
        simp [Shutdown.step, Shutdown.stepMain, hserving, hu.1.aborted hthen.2]
      exact hmoves hu (by simp [hserving]) hstep (by simp [MainPc.rank, MainPc.stage])
  | joiningServer =>
      rw [hmain] at hmoves
      refine (h.leads_handler (by simp [hmain, MainPc.stage])).trans fun u hu hthen => ?_
      have hjoining : u.main = .joiningServer := hthen.1.trans hmain
      refine (hu.leads_server (by simp [hjoining, MainPc.stage]) hthen.2).trans ?_
      intro v hv hended
      have hstep : v.step capacity .main = some { v with main := .joiningHandler } := by
        simp [Shutdown.step, Shutdown.stepMain, hended.1, hjoining, hended.2]
      exact hmoves hv (by simp [hended.1, hjoining]) hstep (by simp [MainPc.rank, MainPc.stage])
  | joiningHandler =>
      rw [hmain] at hmoves
      refine (h.leads_handler (by simp [hmain, MainPc.stage])).trans fun u hu hthen => ?_
      have hjoining : u.main = .joiningHandler := hthen.1.trans hmain
      have hstep : u.step capacity .main = some { u with main := .stoppingWorker } := by
        simp [Shutdown.step, Shutdown.stepMain, hjoining, hthen.2]
      exact hmoves hu (by simp [hjoining]) hstep (by simp [MainPc.rank, MainPc.stage])
  | stoppingWorker =>
      refine (h.leads_stopped hcapacity hmain).trans fun u hu hstopped => hu.leads_refl ?_
      simp [hstopped, MainPc.rank, MainPc.stage]
  | joiningWorker =>
      rw [hmain] at hmoves
      have hstopped : s.mShouldRun = false := h.1.shouldRun.mpr (by simp [hmain, MainPc.stage])
      refine (h.leads_worker hcapacity hstopped).trans fun u hu hthen => ?_
      have hjoining : u.main = .joiningWorker := hthen.1.trans hmain
      have hstep : u.step capacity .main = some { u with main := .saving } := by
        simp [Shutdown.step, Shutdown.stepMain, hjoining, hthen.2]
      exact hmoves hu (by simp [hjoining]) hstep (by simp [MainPc.rank, MainPc.stage])
  | saving =>
      have hstep : s.step capacity .main = some { s with main := .quitting } := by
        simp [Shutdown.step, Shutdown.stepMain, hmain]
      rw [hmain] at hmoves
      exact hmoves h (by simp [hmain]) hstep (by simp [MainPc.rank, MainPc.stage])
  | quitting =>
      have hstep : s.step capacity .main =
          some { s with mShouldQuit := true, main := .ending (List.finRange n) } := by
        simp [Shutdown.step, Shutdown.stepMain, hmain]
      rw [hmain] at hmoves
      refine hmoves h (by simp [hmain]) hstep ?_
      simp only [MainPc.rank, MainPc.stage, List.length_finRange]
      omega
  | ending threads =>
      rw [hmain] at hmoves
      cases threads with
      | nil =>
          have hstep : s.step capacity .main = some { s with main := .closing } := by
            simp [Shutdown.step, Shutdown.stepMain, hmain]
          exact hmoves h (by simp [hmain]) hstep (by simp [MainPc.rank])
      | cons i threads =>
          have hstep : s.step capacity .main =
              some { s with
                pending := Function.update s.pending i true
                main := .joining i threads } := by
            simp [Shutdown.step, Shutdown.stepMain, hmain]
          refine hmoves h (by simp [hmain]) hstep ?_
          simp only [MainPc.rank, List.length_cons]
          omega
  | joining i threads =>
      rw [hmain] at hmoves
      refine (h.leads_receiver hmain).trans fun u hu hthen => ?_
      have hstep : u.step capacity .main = some { u with main := .ending threads } := by
        simp [Shutdown.step, Shutdown.stepMain, hthen.1, hthen.2]
      exact hmoves hu (by simp [hthen.1]) hstep (by simp [MainPc.rank])
  | closing => exact absurd hmain hnot

theorem Good.canClose (hcapacity : 0 < capacity) (h : s.Good capacity) : s.CanClose capacity := by
  have hcloses : s.Leads capacity fun t => True ∧ t.main = .closing :=
    h.leads (fun t => t.main.rank) trivial fun u hu _ hnot =>
      (hu.leads_main hcapacity hnot).trans fun v hv hlt => hv.leads_refl ⟨trivial, hlt⟩
  obtain ⟨t, hst, -, -, hmain⟩ := hcloses
  exact ⟨t, hst, hmain⟩

/-- What was said of a state is the whole truth. -/
theorem Sound.canClose_iff (hcapacity : 0 < capacity) (h : s.Sound capacity)
    (hnot : s.handler ≠ .waiting) : s.CanClose capacity ↔ s.Ok capacity :=
  ⟨h.ok_of_canClose, fun hok => Good.canClose hcapacity ⟨h, hok, hnot⟩⟩

/-- Before there is a signal, the worker thread is there and `requestStop` has not been called. -/
theorem Sound.ok_of_waiting (h : s.Sound capacity) (hwaiting : s.handler = .waiting) :
    s.Ok capacity := by
  have hruns : s.mShouldRun = true := by
    rw [← Bool.not_eq_false, h.shouldRun]
    intro hlate
    cases hwaiting.symm.trans (h.joinedHandler (by omega))
  refine ⟨fun hdone => ?_, fun hgone => ?_⟩
  · rw [hwaiting] at hdone
    cases hdone
  · rcases hgone with hended | ⟨-, hstopped⟩
    · cases hruns.symm.trans (h.workerEnded hended)
    · cases hruns.symm.trans hstopped

/-- After a signal to terminate, all threads can be joined without a client's help. -/
def Closes (capacity : Nat) (s : Shutdown n) : Prop := s.handler ≠ .waiting → s.CanClose capacity

theorem Sound.closes_iff (hcapacity : 0 < capacity) (h : s.Sound capacity) :
    s.Closes capacity ↔ s.Ok capacity := by
  by_cases hwaiting : s.handler = .waiting
  · exact iff_of_true (fun hnot => absurd hwaiting hnot) (h.ok_of_waiting hwaiting)
  · exact (imp_iff_right hwaiting).trans (h.canClose_iff hcapacity hwaiting)

/-- Over every run: the program can end in every state exactly if every step comes in time. -/
theorem closes_iff_inTime (hcapacity : 0 < capacity)
    {run : List (ShutdownAction n × Shutdown n)}
    (hrun : Runs.IsRun (Runs.StepOf (step capacity)) {} run) :
    Runs.AllStates (Closes capacity) run ↔ Runs.AllSteps (InTime capacity) {} run := by
  have hsound := sound_initial capacity n
  refine hrun.allStates_iff_allSteps (I := Sound capacity) (fun s a t h _ _ hstep => h.step hstep)
    (fun s a t h hcloses hstep => ?_) hsound fun hnot => absurd rfl hnot
  rw [(h.step hstep).closes_iff hcapacity]
  exact h.ok_iff_inTime ((h.closes_iff hcapacity).mp hcloses) hstep

/-- The whole way with one thread that receives, and the three ways to lose it: a signal to
terminate before the server is known, a `SIGUSR1` just before `poll`, and requests for a queue
that nobody empties. -/
theorem closes_overtaken :
    let step : Shutdown 1 → ShutdownAction 1 → Option (Shutdown 1) := Shutdown.step 1
    let serves : List (ShutdownAction 1) := [.main, .main, .server, .receiver 0]
    let stops : List (ShutdownAction 1) :=
      [.server, .terminate, .handler, .handler, .handler, .handler, .main, .server, .main, .main,
        .main]
    let ends := Runs.runOf step {}
      (serves ++ stops ++ [.worker, .main, .events 0 1, .main, .main, .receiver 0, .main,
        .receiver 0, .receiver 0, .main, .main])
    let early := Runs.runOf step {} [.main, .terminate, .handler]
    let unheard := Runs.runOf step {} (serves ++ [.terminate, .handler, .handler, .handler])
    let full := Runs.runOf step {} (serves ++ stops ++ [.worker, .main, .events 0 2])
    Runs.AllStates (Closes 1) ends ∧ (Runs.last {} ends).main = .closing ∧
      ¬ Runs.AllStates (Closes 1) early ∧ ¬ Runs.AllStates (Closes 1) unheard ∧
        ¬ Runs.AllStates (Closes 1) full := by
  intro step serves stops ends early unheard full
  refine ⟨?_, by decide +kernel, ?_, ?_, ?_⟩
  · rw [closes_iff_inTime Nat.zero_lt_one (Runs.isRun_runOf step {} _)]
    decide +kernel
  · rw [closes_iff_inTime Nat.zero_lt_one (Runs.isRun_runOf step {} _)]
    decide +kernel
  · rw [closes_iff_inTime Nat.zero_lt_one (Runs.isRun_runOf step {} _)]
    decide +kernel
  · rw [closes_iff_inTime Nat.zero_lt_one (Runs.isRun_runOf step {} _)]
    decide +kernel

end Shutdown

end NioevMqtt
