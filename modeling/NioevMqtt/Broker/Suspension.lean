-- SUMMARY: The suspension of the threads that receive: while it lasts none of them handles packets, it comes about whatever they are doing, and nobody waits for ever.
import Mathlib.Algebra.BigOperators.Group.Finset.Basic
import Mathlib.Algebra.Order.BigOperators.Group.Finset
import NioevMqtt.Library.Runs
import NioevMqtt.Library.SharedMutex

/-!
# Suspended threads

`suspendAllThreads`, `resumeAllThreads` and the parts of `receiverThreadFunction` that
answer them. A thread that receives shares `mSuspendMutex` all the time, except while it
goes through `mSuspendMutex2`; the thread of the timers takes the second lock to keep
those out that have let go of the first.
-/

namespace NioevMqtt

/-! ## The threads -/

/-- What a thread does next in `receiverThreadFunction`. -/
inductive ReceiverPc where
  /-- It takes `suspendLock` for the first time. -/
  | starting
  /-- The test of the loop. -/
  | testing
  /-- `epoll_pwait` returns. -/
  | polling
  /-- It has been interrupted, and looks at `mShouldQuit`. -/
  | interrupted
  /-- It looks at `mShouldSuspend`. -/
  | undecided
  /-- `suspendLock.unlock()`. -/
  | releasing
  /-- `mSuspendMutex2.lock_shared()`. -/
  | released
  /-- `mSuspendMutex2.unlock_shared()`. -/
  | passing
  /-- `suspendLock.lock()`. -/
  | returning
  /-- The rest of the loop's body: packets are handled, and data is sent. -/
  | handling
  | ended
deriving DecidableEq, Repr

/-- The thread owns `suspendLock`. -/
def ReceiverPc.holds : ReceiverPc → Bool
  | .testing | .polling | .interrupted | .undecided | .releasing | .handling => true
  | .starting | .released | .passing | .returning | .ended => false

/-- What the thread that suspends does next. -/
inductive SuspenderPc where
  /-- `mShouldSuspend = true`. -/
  | idle
  /-- `mSuspendMutex2.lock()`. -/
  | announced
  /-- The loop of `try_lock` and `pthread_kill`. -/
  | signalling
  /-- `mSuspendMutex2.unlock()`. -/
  | acquired
  /-- Between `suspendAllThreads` and `resumeAllThreads`. -/
  | suspended
  /-- `mShouldSuspend = false`. -/
  | resuming
deriving DecidableEq, Repr

structure ReceiverThreads (ι : Type*) where
  pc : ι → ReceiverPc := fun _ => .starting
  /-- A `SIGUSR1` waits for the next `epoll_pwait`. -/
  pending : ι → Bool := fun _ => false
  /-- The destructor has sent its signal. -/
  killed : ι → Bool := fun _ => false
  suspender : SuspenderPc := .idle
  mSuspendMutex : SharedMutex ι := {}
  mSuspendMutex2 : SharedMutex ι := {}
  mShouldSuspend : Bool := false
  mShouldQuit : Bool := false

inductive ThreadAction (ι : Type*) where
  /-- A thread that receives goes on. It leaves `epoll_pwait` for a signal only. -/
  | receiver (i : ι)
  /-- `epoll_pwait` has events for it. -/
  | events (i : ι)
  /-- `epoll_pwait` fails for another reason than a signal. -/
  | error (i : ι)
  | suspender
  /-- `pthread_kill` of `suspendAllThreads`. -/
  | signal (i : ι)
  /-- The destructor sets `mShouldQuit`. -/
  | quit
  /-- `pthread_kill` of the destructor. -/
  | kill (i : ι)
deriving DecidableEq, Repr

namespace ReceiverThreads

variable {ι : Type*} [DecidableEq ι]

def setPc (s : ReceiverThreads ι) (i : ι) (pc : ReceiverPc) : ReceiverThreads ι :=
  { s with pc := Function.update s.pc i pc }

/-- A thread in `receiverThreadFunction` goes on. -/
def stepReceiver (s : ReceiverThreads ι) (i : ι) : Option (ReceiverThreads ι) :=
  match s.pc i with
  | .starting =>
    (s.mSuspendMutex.lockShared i).map fun m => { s with mSuspendMutex := m }.setPc i .testing
  | .testing =>
    if s.mShouldQuit then
      some ({ s with mSuspendMutex := s.mSuspendMutex.unlockShared i }.setPc i .ended)
    else some (s.setPc i .polling)
  | .polling =>
    if s.pending i then
      some ({ s with pending := Function.update s.pending i false }.setPc i .interrupted)
    else none
  | .interrupted => some (s.setPc i (if s.mShouldQuit then .testing else .undecided))
  | .undecided => some (s.setPc i (if s.mShouldSuspend then .releasing else .handling))
  | .releasing => some ({ s with mSuspendMutex := s.mSuspendMutex.unlockShared i }.setPc i .released)
  | .released =>
    (s.mSuspendMutex2.lockShared i).map fun m => { s with mSuspendMutex2 := m }.setPc i .passing
  | .passing =>
    some ({ s with mSuspendMutex2 := s.mSuspendMutex2.unlockShared i }.setPc i .returning)
  | .returning =>
    (s.mSuspendMutex.lockShared i).map fun m => { s with mSuspendMutex := m }.setPc i .testing
  | .handling => some (s.setPc i .testing)
  | .ended => none

/-- `suspendAllThreads`, and then `resumeAllThreads`. -/
def stepSuspender (s : ReceiverThreads ι) : Option (ReceiverThreads ι) :=
  match s.suspender with
  | .idle => some { s with mShouldSuspend := true, suspender := .announced }
  | .announced =>
    s.mSuspendMutex2.tryLock.map fun m => { s with mSuspendMutex2 := m, suspender := .signalling }
  | .signalling =>
    s.mSuspendMutex.tryLock.map fun m => { s with mSuspendMutex := m, suspender := .acquired }
  | .acquired => some { s with mSuspendMutex2 := s.mSuspendMutex2.unlock, suspender := .suspended }
  | .suspended => some { s with mSuspendMutex := s.mSuspendMutex.unlock, suspender := .resuming }
  | .resuming => some { s with mShouldSuspend := false, suspender := .idle }

def step (s : ReceiverThreads ι) : ThreadAction ι → Option (ReceiverThreads ι)
  | .receiver i => s.stepReceiver i
  | .events i => if s.pc i = .polling then some (s.setPc i .handling) else none
  | .error i => if s.pc i = .polling then some (s.setPc i .testing) else none
  | .suspender => s.stepSuspender
  | .signal i =>
    if s.suspender = .signalling then some { s with pending := Function.update s.pending i true }
    else none
  | .quit => some { s with mShouldQuit := true }
  | .kill i =>
    if s.mShouldQuit then
      some
        { s with
          pending := Function.update s.pending i true
          killed := Function.update s.killed i true }
    else none

/-- Of the threads that receive, it moves this one only. -/
theorem pc_stepReceiver {s t : ReceiverThreads ι} {i : ι} (hstep : s.stepReceiver i = some t) :
    ∃ pc, t.pc = Function.update s.pc i pc := by
  unfold stepReceiver at hstep
  split at hstep
  case h_1 =>
    obtain ⟨m, -, rfl⟩ := Option.map_eq_some_iff.mp hstep
    exact ⟨_, rfl⟩
  case h_2 =>
    split at hstep
    · cases hstep
      exact ⟨_, rfl⟩
    · cases hstep
      exact ⟨_, rfl⟩
  case h_3 =>
    split at hstep
    · cases hstep
      exact ⟨_, rfl⟩
    · cases hstep
  case h_7 =>
    obtain ⟨m, -, rfl⟩ := Option.map_eq_some_iff.mp hstep
    exact ⟨_, rfl⟩
  case h_9 =>
    obtain ⟨m, -, rfl⟩ := Option.map_eq_some_iff.mp hstep
    exact ⟨_, rfl⟩
  case h_11 => cases hstep
  all_goals
    cases hstep
    exact ⟨_, rfl⟩

theorem pc_stepSuspender {s t : ReceiverThreads ι} (hstep : s.stepSuspender = some t) :
    t.pc = s.pc := by
  unfold stepSuspender at hstep
  split at hstep
  case h_2 =>
    obtain ⟨m, -, rfl⟩ := Option.map_eq_some_iff.mp hstep
    rfl
  case h_3 =>
    obtain ⟨m, -, rfl⟩ := Option.map_eq_some_iff.mp hstep
    rfl
  all_goals
    cases hstep
    rfl

/-! ## Who holds what -/

/-- The locks are held by those who own them. -/
structure Sound (s : ReceiverThreads ι) : Prop where
  sharers : ∀ i, i ∈ s.mSuspendMutex.sharers ↔ (s.pc i).holds = true
  sharers2 : ∀ i, i ∈ s.mSuspendMutex2.sharers ↔ s.pc i = .passing
  exclusive : s.mSuspendMutex.exclusive = true ↔
    s.suspender = .acquired ∨ s.suspender = .suspended
  exclusive2 : s.mSuspendMutex2.exclusive = true ↔
    s.suspender = .signalling ∨ s.suspender = .acquired
  shouldSuspend : s.mShouldSuspend = true ↔ s.suspender ≠ .idle
  /-- Whoever the destructor has signalled does not sleep. -/
  awake : ∀ i, s.killed i = true → s.mShouldQuit = true ∧ (s.pc i = .polling → s.pending i = true)

variable {s t : ReceiverThreads ι} {i j : ι}

omit [DecidableEq ι] in
theorem sound_initial : Sound ({} : ReceiverThreads ι) where
  sharers := fun _ => iff_of_false (Finset.notMem_empty _) Bool.false_ne_true
  sharers2 := fun _ => iff_of_false (Finset.notMem_empty _) ReceiverPc.noConfusion
  exclusive := by simp
  exclusive2 := by simp
  shouldSuspend := by simp
  awake := fun _ h => by cases h

/-- A thread goes on, and its locks with it. -/
theorem Sound.move (h : s.Sound) (pc : ReceiverPc) (m m2 : SharedMutex ι) (pending : ι → Bool)
    (hm : ∀ j, j ∈ m.sharers ↔ if j = i then pc.holds = true else j ∈ s.mSuspendMutex.sharers)
    (hm2 : ∀ j, j ∈ m2.sharers ↔ if j = i then pc = .passing else j ∈ s.mSuspendMutex2.sharers)
    (hexclusive : m.exclusive = s.mSuspendMutex.exclusive)
    (hexclusive2 : m2.exclusive = s.mSuspendMutex2.exclusive)
    (hpending : ∀ j, j ≠ i → pending j = s.pending j)
    (hawake : s.mShouldQuit = true → pc = .polling → s.killed i = true → pending i = true) :
    Sound ({ s with mSuspendMutex := m, mSuspendMutex2 := m2, pending := pending }.setPc i pc) := by
  refine ⟨fun j => ?_, fun j => ?_, ?_, ?_, h.shouldSuspend, fun j hkilled => ?_⟩
  · show j ∈ m.sharers ↔ (Function.update s.pc i pc j).holds = true
    rw [hm]
    by_cases hj : j = i
    · subst hj
      rw [if_pos rfl, Function.update_self]
    · rw [if_neg hj, Function.update_of_ne hj, h.sharers]
  · show j ∈ m2.sharers ↔ Function.update s.pc i pc j = .passing
    rw [hm2]
    by_cases hj : j = i
    · subst hj
      rw [if_pos rfl, Function.update_self]
    · rw [if_neg hj, Function.update_of_ne hj, h.sharers2]
  · show m.exclusive = true ↔ _
    rw [hexclusive]
    exact h.exclusive
  · show m2.exclusive = true ↔ _
    rw [hexclusive2]
    exact h.exclusive2
  · refine ⟨(h.awake j hkilled).1, ?_⟩
    show Function.update s.pc i pc j = .polling → pending j = true
    by_cases hj : j = i
    · subst hj
      rw [Function.update_self]
      exact fun hpc => hawake (h.awake j hkilled).1 hpc hkilled
    · rw [Function.update_of_ne hj, hpending j hj]
      exact (h.awake j hkilled).2

theorem Sound.keeps_sharers {old pc : ReceiverPc} (h : s.Sound) (hpc : s.pc i = old)
    (hholds : old.holds = pc.holds) (j : ι) :
    j ∈ s.mSuspendMutex.sharers ↔
      if j = i then pc.holds = true else j ∈ s.mSuspendMutex.sharers := by
  split
  · next hj => rw [hj, h.sharers, hpc, hholds]
  · exact Iff.rfl

theorem Sound.keeps_sharers2 {old pc : ReceiverPc} (h : s.Sound) (hpc : s.pc i = old)
    (hold : old ≠ .passing) (hnew : pc ≠ .passing) (j : ι) :
    j ∈ s.mSuspendMutex2.sharers ↔
      if j = i then pc = .passing else j ∈ s.mSuspendMutex2.sharers := by
  split
  · next hj =>
      rw [hj, h.sharers2, hpc]
      exact iff_of_false hold hnew
  · exact Iff.rfl

theorem mem_shared_iff {m m' : SharedMutex ι} {p : Prop} (hp : p) (h : m.lockShared i = some m')
    (j : ι) : j ∈ m'.sharers ↔ if j = i then p else j ∈ m.sharers := by
  rw [SharedMutex.mem_lockShared h]
  split
  · next hj => exact iff_of_true (.inl hj) hp
  · next hj => exact or_iff_right hj

theorem mem_unlock_iff {m : SharedMutex ι} {p : Prop} (hp : ¬ p) (j : ι) :
    j ∈ (m.unlockShared i).sharers ↔ if j = i then p else j ∈ m.sharers := by
  rw [SharedMutex.mem_unlockShared]
  split
  · next hj => exact iff_of_false (fun h => h.1 hj) hp
  · next hj => exact and_iff_right hj

theorem exclusive_lockShared {m m' : SharedMutex ι} (h : m.lockShared i = some m') :
    m'.exclusive = m.exclusive := by
  obtain ⟨hfree, rfl⟩ := SharedMutex.lockShared_eq_some_iff.mp h
  exact hfree.symm

/-- Without touching a lock a thread stays inside or outside `suspendLock`. -/
theorem Sound.setPc {old pc : ReceiverPc} (h : s.Sound) (hpc : s.pc i = old)
    (hholds : old.holds = pc.holds) (hold : old ≠ .passing) (hnew : pc ≠ .passing)
    (hawake : s.mShouldQuit = true → pc ≠ .polling) : (s.setPc i pc).Sound :=
  h.move pc s.mSuspendMutex s.mSuspendMutex2 s.pending (h.keeps_sharers hpc hholds)
    (h.keeps_sharers2 hpc hold hnew) rfl rfl (fun _ _ => rfl) fun hquit heq =>
      absurd heq (hawake hquit)

/-- It takes `suspendLock`. -/
theorem Sound.lock {old : ReceiverPc} (h : s.Sound) (hpc : s.pc i = old) (hold : old ≠ .passing)
    {m : SharedMutex ι} (hm : s.mSuspendMutex.lockShared i = some m) :
    ({ s with mSuspendMutex := m }.setPc i .testing).Sound :=
  h.move .testing m s.mSuspendMutex2 s.pending (mem_shared_iff rfl hm)
    (h.keeps_sharers2 hpc hold (by decide)) (exclusive_lockShared hm) rfl (fun _ _ => rfl)
    fun _ heq => by cases heq

/-- It lets go of it. -/
theorem Sound.unlock {old pc : ReceiverPc} (h : s.Sound) (hpc : s.pc i = old)
    (hold : old ≠ .passing) (hholds : ¬ pc.holds = true) (hnew : pc ≠ .passing) :
    ({ s with mSuspendMutex := s.mSuspendMutex.unlockShared i }.setPc i pc).Sound :=
  h.move pc (s.mSuspendMutex.unlockShared i) s.mSuspendMutex2 s.pending (mem_unlock_iff hholds)
    (h.keeps_sharers2 hpc hold hnew) rfl rfl (fun _ _ => rfl) fun _ heq => by
      rw [heq] at hholds
      exact absurd rfl hholds

theorem sound_stepReceiver (h : s.Sound) (hstep : s.stepReceiver i = some t) : t.Sound := by
  unfold stepReceiver at hstep
  cases hpc : s.pc i with
  | starting =>
      rw [hpc] at hstep
      obtain ⟨m, hm, rfl⟩ := Option.map_eq_some_iff.mp hstep
      exact h.lock hpc (by decide) hm
  | testing =>
      simp only [hpc] at hstep
      split at hstep
      · cases hstep
        exact h.unlock hpc (by decide) (by decide) (by decide)
      · next hquit =>
          cases hstep
          exact h.setPc hpc rfl (by decide) (by decide) fun hq => absurd hq hquit
  | polling =>
      simp only [hpc] at hstep
      split at hstep
      · cases hstep
        exact h.move .interrupted s.mSuspendMutex s.mSuspendMutex2 _ (h.keeps_sharers hpc rfl)
          (h.keeps_sharers2 hpc (by decide) (by decide)) rfl rfl
          (fun j hj => Function.update_of_ne hj _ _) fun _ heq => by cases heq
      · cases hstep
  | interrupted =>
      simp only [hpc] at hstep
      cases hstep
      split
      · exact h.setPc hpc rfl (by decide) (by decide) fun _ => by decide
      · exact h.setPc hpc rfl (by decide) (by decide) fun _ => by decide
  | undecided =>
      simp only [hpc] at hstep
      cases hstep
      split
      · exact h.setPc hpc rfl (by decide) (by decide) fun _ => by decide
      · exact h.setPc hpc rfl (by decide) (by decide) fun _ => by decide
  | releasing =>
      rw [hpc] at hstep
      cases hstep
      exact h.unlock hpc (by decide) (by decide) (by decide)
  | released =>
      rw [hpc] at hstep
      obtain ⟨m, hm, rfl⟩ := Option.map_eq_some_iff.mp hstep
      exact h.move .passing s.mSuspendMutex m s.pending (h.keeps_sharers hpc rfl)
        (mem_shared_iff rfl hm) rfl (exclusive_lockShared hm) (fun _ _ => rfl)
        fun _ heq => by cases heq
  | passing =>
      rw [hpc] at hstep
      cases hstep
      exact h.move .returning s.mSuspendMutex (s.mSuspendMutex2.unlockShared i) s.pending
        (h.keeps_sharers hpc rfl) (mem_unlock_iff (by decide)) rfl rfl (fun _ _ => rfl)
        fun _ heq => by cases heq
  | returning =>
      rw [hpc] at hstep
      obtain ⟨m, hm, rfl⟩ := Option.map_eq_some_iff.mp hstep
      exact h.lock hpc (by decide) hm
  | handling =>
      rw [hpc] at hstep
      cases hstep
      exact h.setPc hpc rfl (by decide) (by decide) fun _ => by decide
  | ended =>
      rw [hpc] at hstep
      cases hstep

theorem sound_stepSuspender (h : s.Sound) (hstep : s.stepSuspender = some t) : t.Sound := by
  obtain ⟨hsharers, hsharers2, hexclusive, hexclusive2, hshould, hawake⟩ := h
  unfold stepSuspender at hstep
  cases hpc : s.suspender with
  | idle =>
      rw [hpc] at hstep hexclusive hexclusive2
      cases hstep
      exact ⟨hsharers, hsharers2, by simpa using hexclusive, by simpa using hexclusive2, by simp,
        hawake⟩
  | announced =>
      rw [hpc] at hstep hexclusive hshould
      obtain ⟨m, hm, rfl⟩ := Option.map_eq_some_iff.mp hstep
      obtain ⟨hempty, -, rfl⟩ := SharedMutex.tryLock_eq_some_iff.mp hm
      rw [hempty] at hsharers2
      exact ⟨hsharers, hsharers2, by simpa using hexclusive, by simp, by simpa using hshould, hawake⟩
  | signalling =>
      rw [hpc] at hstep hexclusive2 hshould
      obtain ⟨m, hm, rfl⟩ := Option.map_eq_some_iff.mp hstep
      obtain ⟨hempty, -, rfl⟩ := SharedMutex.tryLock_eq_some_iff.mp hm
      rw [hempty] at hsharers
      exact ⟨hsharers, hsharers2, by simp, by simpa using hexclusive2, by simpa using hshould, hawake⟩
  | acquired =>
      rw [hpc] at hstep hexclusive hshould
      cases hstep
      exact ⟨hsharers, hsharers2, by simpa using hexclusive, by simp [SharedMutex.unlock,
        SharedMutex.shared], by simpa using hshould, hawake⟩
  | suspended =>
      rw [hpc] at hstep hexclusive2 hshould
      cases hstep
      exact ⟨hsharers, hsharers2, by simp [SharedMutex.unlock, SharedMutex.shared],
        by simpa using hexclusive2, by simpa using hshould, hawake⟩
  | resuming =>
      rw [hpc] at hstep hexclusive hexclusive2
      cases hstep
      exact ⟨hsharers, hsharers2, by simpa using hexclusive, by simpa using hexclusive2, by simp,
        hawake⟩

theorem sound_step {action : ThreadAction ι} (h : s.Sound) (hstep : s.step action = some t) :
    t.Sound := by
  cases action with
  | receiver i => exact sound_stepReceiver h hstep
  | events i =>
      simp only [step, Option.ite_none_right_eq_some, Option.some.injEq] at hstep
      obtain ⟨hpc, rfl⟩ := hstep
      exact h.setPc hpc rfl (by decide) (by decide) fun _ => by decide
  | error i =>
      simp only [step, Option.ite_none_right_eq_some, Option.some.injEq] at hstep
      obtain ⟨hpc, rfl⟩ := hstep
      exact h.setPc hpc rfl (by decide) (by decide) fun _ => by decide
  | suspender => exact sound_stepSuspender h hstep
  | signal i =>
      simp only [step, Option.ite_none_right_eq_some, Option.some.injEq] at hstep
      obtain ⟨-, rfl⟩ := hstep
      refine { h with awake := fun j hkilled => ⟨(h.awake j hkilled).1, fun hpolling => ?_⟩ }
      show Function.update s.pending i true j = true
      by_cases hj : j = i
      · rw [hj, Function.update_self]
      · rw [Function.update_of_ne hj]
        exact (h.awake j hkilled).2 hpolling
  | quit =>
      cases hstep
      exact { h with awake := fun j hkilled => ⟨rfl, (h.awake j hkilled).2⟩ }
  | kill i =>
      simp only [step, Option.ite_none_right_eq_some, Option.some.injEq] at hstep
      obtain ⟨hquit, rfl⟩ := hstep
      refine { h with awake := fun j hkilled => ⟨hquit, fun hpolling => ?_⟩ }
      show Function.update s.pending i true j = true
      by_cases hj : j = i
      · rw [hj, Function.update_self]
      · rw [Function.update_of_ne hj]
        exact (h.awake j (by simpa [Function.update_of_ne hj] using hkilled)).2 hpolling

theorem sound_of_isRun {run : List (ThreadAction ι × ReceiverThreads ι)}
    (hrun : Runs.IsRun (Runs.StepOf step) {} run) : (Runs.last {} run).Sound :=
  hrun.invariant_last (fun _ _ _ h hstep => sound_step h hstep) sound_initial

omit [DecidableEq ι] in
/-- While they are suspended, no thread is in the body of the loop. -/
theorem Sound.holds_eq_false (h : s.Sound) (hsuspended : s.suspender = .suspended) (i : ι) :
    (s.pc i).holds = false := by
  have hempty := s.mSuspendMutex.alone (h.exclusive.mpr (.inr hsuspended))
  rw [← Bool.not_eq_true, ← h.sharers, hempty]
  exact Finset.notMem_empty i

omit [DecidableEq ι] in
theorem Sound.ne_passing (h : s.Sound) (hsignalling : s.suspender = .signalling) (i : ι) :
    s.pc i ≠ .passing := by
  have hempty := s.mSuspendMutex2.alone (h.exclusive2.mpr (.inl hsignalling))
  rw [Ne, ← h.sharers2, hempty]
  exact Finset.notMem_empty i

end ReceiverThreads

/-! ## How long it takes

While the thread of the timers sends its signals, each of the others comes nearer to
giving up its lock with everything it does, unless `epoll_pwait` has something for it. -/

/-- How far the thread is from giving up `suspendLock`. -/
def ReceiverPc.rank (mShouldQuit : Bool) : ReceiverPc → Nat
  | .ended | .released => 0
  | .releasing => 1
  | .testing => if mShouldQuit then 1 else 5
  | .undecided => 2
  | .interrupted => 3
  | .polling => 4
  | .starting | .returning | .handling => 6
  | .passing => 7

theorem ReceiverPc.rank_testing_le (mShouldQuit : Bool) : testing.rank mShouldQuit ≤ 5 := by
  cases mShouldQuit <;> decide

theorem ReceiverPc.rank_le {pc : ReceiverPc} (h : pc ≠ .passing) (mShouldQuit : Bool) :
    pc.rank mShouldQuit ≤ 6 := by
  cases pc with
  | testing => exact (rank_testing_le mShouldQuit).trans (by decide)
  | passing => exact absurd rfl h
  | _ => cases mShouldQuit <;> decide

namespace ThreadAction

variable {ι : Type*}

/-- A thread that receives goes on. -/
def isReceiver : ThreadAction ι → Bool
  | .receiver _ => true
  | _ => false

/-- There is something to do for it. -/
def isOutside : ThreadAction ι → Bool
  | .events _ | .error _ => true
  | _ => false

end ThreadAction

namespace ReceiverThreads

variable {ι : Type*} [DecidableEq ι] [Fintype ι] {s t : ReceiverThreads ι} {i : ι}

def rank (s : ReceiverThreads ι) : Nat := ∑ i, (s.pc i).rank s.mShouldQuit

theorem rank_move {old pc : ReceiverPc} (hold : s.pc i = old)
    (hpc : t.pc = Function.update s.pc i pc) (hquit : t.mShouldQuit = s.mShouldQuit) :
    t.rank + old.rank s.mShouldQuit = s.rank + pc.rank s.mShouldQuit := by
  have hothers : ∑ j ∈ Finset.univ.erase i, (t.pc j).rank s.mShouldQuit =
      ∑ j ∈ Finset.univ.erase i, (s.pc j).rank s.mShouldQuit := by
    refine Finset.sum_congr rfl fun j hj => ?_
    rw [hpc, Function.update_of_ne (Finset.ne_of_mem_erase hj)]
  have hself : t.pc i = pc := by rw [hpc, Function.update_self]
  unfold rank
  rw [hquit, ← Finset.add_sum_erase _ _ (Finset.mem_univ i), hothers, hself,
    ← Finset.add_sum_erase _ (fun j => (s.pc j).rank s.mShouldQuit) (Finset.mem_univ i), hold]
  omega

/-- Going on is coming nearer. -/
theorem rank_stepReceiver (h : s.Sound) (hsignalling : s.suspender = .signalling)
    (hstep : s.stepReceiver i = some t) : t.rank < s.rank := by
  have hmove : ∀ {old pc : ReceiverPc}, s.pc i = old → t.pc = Function.update s.pc i pc →
      t.mShouldQuit = s.mShouldQuit → pc.rank s.mShouldQuit < old.rank s.mShouldQuit →
      t.rank < s.rank := by
    intro old pc hold hpc hquit hlt
    have heq := rank_move hold hpc hquit
    omega
  have htesting := ReceiverPc.rank_testing_le s.mShouldQuit
  unfold stepReceiver at hstep
  cases hpc : s.pc i with
  | starting =>
      rw [hpc] at hstep
      obtain ⟨m, -, rfl⟩ := Option.map_eq_some_iff.mp hstep
      exact hmove hpc rfl rfl (Nat.lt_succ_of_le htesting)
  | testing =>
      simp only [hpc] at hstep
      split at hstep
      · next hquit =>
          cases hstep
          exact hmove hpc rfl rfl (by rw [hquit]; decide)
      · next hquit =>
          cases hstep
          exact hmove hpc rfl rfl (by rw [Bool.not_eq_true] at hquit; rw [hquit]; decide)
  | polling =>
      simp only [hpc] at hstep
      split at hstep
      · cases hstep
        exact hmove hpc rfl rfl (by cases s.mShouldQuit <;> decide)
      · cases hstep
  | interrupted =>
      simp only [hpc] at hstep
      cases hstep
      refine hmove hpc rfl rfl ?_
      split
      · next hquit => rw [hquit]; decide
      · cases s.mShouldQuit <;> decide
  | undecided =>
      have hshould := h.shouldSuspend.mpr (by rw [hsignalling]; exact SuspenderPc.noConfusion)
      simp only [hpc, hshould, if_true] at hstep
      cases hstep
      exact hmove hpc rfl rfl (by cases s.mShouldQuit <;> decide)
  | releasing =>
      rw [hpc] at hstep
      cases hstep
      exact hmove hpc rfl rfl (by cases s.mShouldQuit <;> decide)
  | released =>
      rw [hpc] at hstep
      obtain ⟨m, hm, -⟩ := Option.map_eq_some_iff.mp hstep
      have hfree := (SharedMutex.lockShared_eq_some_iff.mp hm).1
      rw [h.exclusive2.mpr (.inl hsignalling)] at hfree
      cases hfree
  | passing => exact absurd hpc (h.ne_passing hsignalling i)
  | returning =>
      rw [hpc] at hstep
      obtain ⟨m, -, rfl⟩ := Option.map_eq_some_iff.mp hstep
      exact hmove hpc rfl rfl (Nat.lt_succ_of_le htesting)
  | handling =>
      rw [hpc] at hstep
      cases hstep
      exact hmove hpc rfl rfl (Nat.lt_succ_of_le htesting)
  | ended =>
      rw [hpc] at hstep
      cases hstep

omit [DecidableEq ι] in
/-- With `mShouldQuit` set a thread leaves the loop earlier. -/
theorem rank_quit (s : ReceiverThreads ι) : rank { s with mShouldQuit := true } ≤ s.rank := by
  refine Finset.sum_le_sum fun i _ => ?_
  show (s.pc i).rank true ≤ (s.pc i).rank s.mShouldQuit
  cases s.pc i <;> cases s.mShouldQuit <;> decide

/-- What a step adds or takes. -/
theorem rank_step (h : s.Sound) (hsignalling : s.suspender = .signalling)
    (hsignalling' : t.suspender = .signalling) {action : ThreadAction ι}
    (hstep : s.step action = some t) :
    (if action.isReceiver then 1 else 0) + t.rank ≤ s.rank + if action.isOutside then 2 else 0 := by
  cases action with
  | receiver i =>
      have hlt := rank_stepReceiver h hsignalling hstep
      simp only [ThreadAction.isReceiver, ThreadAction.isOutside, if_true, Bool.false_eq_true, if_false]
      omega
  | events i =>
      simp only [step, Option.ite_none_right_eq_some, Option.some.injEq] at hstep
      obtain ⟨hpc, rfl⟩ := hstep
      have hmove : _ + 4 = _ + 6 := rank_move (t := s.setPc i .handling) hpc rfl rfl
      simp only [ThreadAction.isReceiver, ThreadAction.isOutside, if_true, Bool.false_eq_true, if_false]
      omega
  | error i =>
      simp only [step, Option.ite_none_right_eq_some, Option.some.injEq] at hstep
      obtain ⟨hpc, rfl⟩ := hstep
      have hmove : _ + 4 = _ + _ := rank_move (t := s.setPc i .testing) hpc rfl rfl
      have htesting := ReceiverPc.rank_testing_le s.mShouldQuit
      simp only [ThreadAction.isReceiver, ThreadAction.isOutside, if_true, Bool.false_eq_true, if_false]
      omega
  | suspender =>
      -- The suspending thread has the lock now.
      simp only [step, stepSuspender, hsignalling] at hstep
      obtain ⟨m, -, rfl⟩ := Option.map_eq_some_iff.mp hstep
      cases hsignalling'
  | signal i =>
      simp only [step, Option.ite_none_right_eq_some, Option.some.injEq] at hstep
      obtain ⟨-, rfl⟩ := hstep
      exact (Nat.zero_add _).le
  | quit =>
      cases hstep
      exact (Nat.zero_add _).le.trans (rank_quit s)
  | kill i =>
      simp only [step, Option.ite_none_right_eq_some, Option.some.injEq] at hstep
      obtain ⟨-, rfl⟩ := hstep
      exact (Nat.zero_add _).le

theorem rank_run {run : List (ThreadAction ι × ReceiverThreads ι)} (h : s.Sound)
    (hsignalling : s.suspender = .signalling) (hrun : Runs.IsRun (Runs.StepOf step) s run)
    (hsignals : Runs.AllStates (fun t => t.suspender = .signalling) run) :
    run.countP (fun x => x.1.isReceiver) + (Runs.last s run).rank ≤
      s.rank + 2 * run.countP (fun x => x.1.isOutside) := by
  induction run generalizing s with
  | nil => exact (Nat.zero_add _).le
  | cons x run ih =>
      obtain ⟨action, t⟩ := x
      obtain ⟨hstep, hrun⟩ := hrun
      obtain ⟨ht, hsignals⟩ := Runs.allStates_cons _ _ _ |>.mp hsignals
      have hfirst := rank_step h hsignalling ht hstep
      have hrest := ih (sound_step h hstep) ht hrun hsignals
      rw [List.countP_cons, List.countP_cons]
      show _ + (Runs.last t run).rank ≤ _
      split at hfirst <;> split at hfirst <;> simp_all <;> omega

omit [DecidableEq ι] in
theorem Sound.rank_le (h : s.Sound) (hsignalling : s.suspender = .signalling) :
    s.rank ≤ 6 * Fintype.card ι := by
  have hle : ∀ i ∈ Finset.univ, (s.pc i).rank s.mShouldQuit ≤ 6 :=
    fun i _ => ReceiverPc.rank_le (h.ne_passing hsignalling i) _
  calc s.rank ≤ ∑ _i : ι, 6 := Finset.sum_le_sum hle
    _ = Fintype.card ι * 6 := Finset.sum_const_nat fun _ _ => rfl
    _ = 6 * Fintype.card ι := Nat.mul_comm _ _

/-! ## Nobody waits for ever -/

/-- Whoever waits, waits for events or for one who can go on. -/
structure Lively (s : ReceiverThreads ι) : Prop where
  /-- A thread that receives waits in `epoll_pwait`, or while the others are suspended. -/
  receivers : ∀ i, (∃ t, s.step (.receiver i) = some t) ∨ s.pc i = .ended ∨
    (s.pc i = .polling ∧ s.killed i = false) ∨
    s.suspender = .signalling ∨ s.suspender = .acquired ∨ s.suspender = .suspended
  /-- The one that suspends them waits for one of them, which may need a signal. -/
  suspender : (∃ t, s.step .suspender = some t) ∨
    (s.suspender = .announced ∧ ∃ i t, s.step (.receiver i) = some t) ∨
    (s.suspender = .signalling ∧
      ∃ i t u, s.step (.signal i) = some t ∧ t.step (.receiver i) = some u)

omit [Fintype ι] in
theorem lockShared_of_not_exclusive {m : SharedMutex ι} (h : ¬ m.exclusive = true) (i : ι) :
    ∃ m', m.lockShared i = some m' :=
  ⟨_, SharedMutex.lockShared_eq_some_iff.mpr ⟨Bool.not_eq_true _ ▸ h, rfl⟩⟩

omit [Fintype ι] in
/-- With `suspendLock` and a signal, a thread goes on. -/
theorem goesOn_of_holds (h : (s.pc i).holds = true) (hpending : s.pending i = true) :
    ∃ t, s.stepReceiver i = some t := by
  unfold stepReceiver
  cases hpc : s.pc i with
  | testing => exact (ite_eq_or_eq _ _ _).elim (fun heq => ⟨_, heq⟩) fun heq => ⟨_, heq⟩
  | polling => exact ⟨_, if_pos hpending⟩
  | interrupted => exact ⟨_, rfl⟩
  | undecided => exact ⟨_, rfl⟩
  | releasing => exact ⟨_, rfl⟩
  | handling => exact ⟨_, rfl⟩
  | starting => rw [hpc] at h; cases h
  | released => rw [hpc] at h; cases h
  | passing => rw [hpc] at h; cases h
  | returning => rw [hpc] at h; cases h
  | ended => rw [hpc] at h; cases h

omit [Fintype ι] in
theorem Sound.lively (h : s.Sound) : s.Lively where
  receivers := by
    intro i
    by_cases hsuspends : s.suspender = .signalling ∨ s.suspender = .acquired ∨
        s.suspender = .suspended
    · exact .inr (.inr (.inr hsuspends))
    · have hfree : ¬ s.mSuspendMutex.exclusive = true := by
        rw [h.exclusive]
        exact fun hheld => hsuspends (.inr hheld)
      have hfree2 : ¬ s.mSuspendMutex2.exclusive = true := by
        rw [h.exclusive2]
        exact fun hheld => hsuspends (hheld.imp id .inl)
      obtain ⟨m, hm⟩ := lockShared_of_not_exclusive hfree i
      obtain ⟨m2, hm2⟩ := lockShared_of_not_exclusive hfree2 i
      by_cases hended : s.pc i = .ended
      · exact .inr (.inl hended)
      by_cases hsleeps : s.pc i = .polling ∧ s.killed i = false
      · exact .inr (.inr (.inl hsleeps))
      refine .inl ?_
      show ∃ t, s.stepReceiver i = some t
      unfold stepReceiver
      cases hpc : s.pc i with
      | starting => exact ⟨_, Option.map_eq_some_iff.mpr ⟨m, hm, rfl⟩⟩
      | testing => exact (ite_eq_or_eq _ _ _).elim (fun heq => ⟨_, heq⟩) fun heq => ⟨_, heq⟩
      | polling =>
          have hkilled : s.killed i = true := by
            by_contra hkilled
            exact hsleeps ⟨hpc, Bool.not_eq_true _ ▸ hkilled⟩
          exact ⟨_, if_pos ((h.awake i hkilled).2 hpc)⟩
      | interrupted => exact ⟨_, rfl⟩
      | undecided => exact ⟨_, rfl⟩
      | releasing => exact ⟨_, rfl⟩
      | released => exact ⟨_, Option.map_eq_some_iff.mpr ⟨m2, hm2, rfl⟩⟩
      | passing => exact ⟨_, rfl⟩
      | returning => exact ⟨_, Option.map_eq_some_iff.mpr ⟨m, hm, rfl⟩⟩
      | handling => exact ⟨_, rfl⟩
      | ended => exact absurd hpc hended
  suspender := by
    have hstep : s.step .suspender = s.stepSuspender := rfl
    unfold stepSuspender at hstep
    cases hpc : s.suspender with
    | idle =>
        rw [hpc] at hstep
        exact .inl ⟨_, hstep⟩
    | acquired =>
        rw [hpc] at hstep
        exact .inl ⟨_, hstep⟩
    | suspended =>
        rw [hpc] at hstep
        exact .inl ⟨_, hstep⟩
    | resuming =>
        rw [hpc] at hstep
        exact .inl ⟨_, hstep⟩
    | announced =>
        rw [hpc] at hstep
        have hfree : s.mSuspendMutex2.exclusive = false := by
          rw [← Bool.not_eq_true, h.exclusive2, hpc]
          decide
        rcases s.mSuspendMutex2.sharers.eq_empty_or_nonempty with hempty | ⟨i, hi⟩
        · have hlock := SharedMutex.tryLock_eq_some_iff.mpr ⟨hempty, hfree, rfl⟩
          exact .inl ⟨_, hstep.trans (Option.map_eq_some_iff.mpr ⟨_, hlock, rfl⟩)⟩
        · refine .inr (.inl ⟨rfl, i, ?_⟩)
          simp only [step, stepReceiver, (h.sharers2 i).mp hi]
          exact ⟨_, rfl⟩
    | signalling =>
        rw [hpc] at hstep
        have hfree : s.mSuspendMutex.exclusive = false := by
          rw [← Bool.not_eq_true, h.exclusive, hpc]
          decide
        rcases s.mSuspendMutex.sharers.eq_empty_or_nonempty with hempty | ⟨i, hi⟩
        · have hlock := SharedMutex.tryLock_eq_some_iff.mpr ⟨hempty, hfree, rfl⟩
          exact .inl ⟨_, hstep.trans (Option.map_eq_some_iff.mpr ⟨_, hlock, rfl⟩)⟩
        · obtain ⟨u, hu⟩ := goesOn_of_holds (s := { s with pending := Function.update s.pending i true })
            ((h.sharers i).mp hi) (Function.update_self i true s.pending)
          exact .inr (.inr ⟨rfl, i, _, u, if_pos hpc, hu⟩)

/-- In every state of every run nobody waits for one who waits, and a suspension is over
soon: while the signals are sent, the threads together take no more than six steps each,
and two for each time that one of them is given something to do. -/
theorem suspends_of_isRun {run : List (ThreadAction ι × ReceiverThreads ι)}
    (hrun : Runs.IsRun (Runs.StepOf step) {} run) (hs : Runs.last {} run = s) :
    s.Lively ∧ ∀ rest : List (ThreadAction ι × ReceiverThreads ι),
      Runs.IsRun (Runs.StepOf step) s rest →
      s.suspender = .signalling → Runs.AllStates (fun t => t.suspender = .signalling) rest →
      rest.countP (fun x => x.1.isReceiver) ≤
        6 * Fintype.card ι + 2 * rest.countP (fun x => x.1.isOutside) := by
  have h : s.Sound := hs ▸ sound_of_isRun hrun
  refine ⟨h.lively, fun rest hrest hsignalling hsignals => ?_⟩
  have hrank := rank_run h hsignalling hrest hsignals
  have hle := h.rank_le hsignalling
  omega

end ReceiverThreads

/-- One of two threads handles packets, the other sleeps, and both are suspended. -/
theorem ReceiverThreads.suspends_two :
    let step : ReceiverThreads (Fin 2) → ThreadAction (Fin 2) → Option (ReceiverThreads (Fin 2)) :=
      ReceiverThreads.step
    let run := Runs.runOf step {}
      [.receiver 0, .receiver 1, .receiver 0, .receiver 1, .events 0, .suspender, .suspender]
    let rest := Runs.runOf step (Runs.last {} run)
      [.signal 0, .signal 1, .receiver 1, .receiver 0, .receiver 1, .receiver 0, .receiver 1,
        .receiver 0, .receiver 1, .receiver 0, .receiver 0, .receiver 0]
    (Runs.last {} run).Lively ∧
      rest.countP (fun x => x.1.isReceiver) ≤
        6 * Fintype.card (Fin 2) + 2 * rest.countP (fun x => x.1.isOutside) := by
  intro step run rest
  obtain ⟨hlively, hsteps⟩ := suspends_of_isRun (Runs.isRun_runOf step {} _) rfl
  exact ⟨hlively, hsteps rest (Runs.isRun_runOf step _ _) (by decide +kernel) (by decide +kernel)⟩

end NioevMqtt
