-- SUMMARY: The queue of requests is bounded, and only the worker thread takes from it: everything can still be finished exactly while there is room for all who wait at the queue with the lock.
import NioevMqtt.Library.Progress
import NioevMqtt.Library.Runs
import NioevMqtt.Library.SharedMutex
import Mathlib.Algebra.Order.BigOperators.Group.Finset
import Mathlib.Data.Fintype.Option

/-!
# The bounded queue

`mQueue` has room for 4096 requests, and `push` waits for more. The worker thread makes
room while it has `mMutex` for itself. So `requestChange` keeps away from the queue when its
thread is the recorded holder of the lock, and must not be called by one that shares it.
-/

namespace NioevMqtt

/-- What a thread has of `mMutex`. -/
inductive Held where
  | nothing
  | shared
  | exclusive
deriving DecidableEq, Repr

/-- What a thread does, as far as the lock and the queue are concerned. -/
inductive QueueThread where
  | running (held : Held)
  | lockingShared
  | locking
  /-- In `mQueue.push`. -/
  | pushing (held : Held)
deriving DecidableEq, Repr

namespace QueueThread

def held : QueueThread → Held
  | .running held | .pushing held => held
  | .lockingShared | .locking => .nothing

/-- It waits at the queue, and has the lock. -/
def isInside : QueueThread → Bool
  | .pushing held => held ≠ .nothing
  | _ => false

/-- How far it is from having finished. -/
def rank : QueueThread → Nat
  | .running .nothing => 0
  | .running _ => 1
  | .lockingShared | .locking => 2
  | .pushing .nothing => 3
  | .pushing _ => 4

end QueueThread

/-- The threads, of which the worker thread is `none`, and how many requests are queued. -/
structure BoundedQueue (ι : Type*) where
  threads : Option ι → QueueThread := fun _ => .running .nothing
  mMutex : SharedMutex (Option ι) := {}
  mCurrentRWHolderOfMMutex : Option (Option ι) := none
  size : Nat := 0

inductive QueueAction (ι : Type*) where
  | lockShared (i : ι)
  | lock (i : Option ι)
  | acquire (i : Option ι)
  | setHolder (i : Option ι)
  /-- The worker thread and that of the timers do it when others may have the lock. -/
  | resetHolder
  | unlock (i : Option ι)
  /-- `requestChange`, in a mode that does not wait for the lock. -/
  | request (i : Option ι)
  | push (i : Option ι)
  /-- The worker thread takes a request from the queue and executes it. -/
  | execute
deriving DecidableEq, Repr

namespace BoundedQueue

section

variable {ι : Type*} [DecidableEq ι]

def setThread (s : BoundedQueue ι) (i : Option ι) (thread : QueueThread) : BoundedQueue ι :=
  { s with threads := Function.update s.threads i thread }

/-- A queue with room for `capacity` requests. The worker thread unlocks when it is empty, and
makes requests of its own while it executes others. -/
def step (capacity : Nat) (s : BoundedQueue ι) : QueueAction ι → Option (BoundedQueue ι)
  | .lockShared i =>
    if s.threads i = .running .nothing then some (s.setThread i .lockingShared) else none
  | .lock i => if s.threads i = .running .nothing then some (s.setThread i .locking) else none
  | .acquire i =>
    match s.threads i with
    | .lockingShared =>
      (s.mMutex.lockShared i).map fun m => { s with mMutex := m }.setThread i (.running .shared)
    | .locking =>
      s.mMutex.tryLock.map fun m => { s with mMutex := m }.setThread i (.running .exclusive)
    | _ => none
  | .setHolder i =>
    if s.threads i = .running .exclusive then some { s with mCurrentRWHolderOfMMutex := some i }
    else none
  | .resetHolder => some { s with mCurrentRWHolderOfMMutex := none }
  | .unlock i =>
    match s.threads i with
    | .running .shared =>
      some ({ s with mMutex := s.mMutex.unlockShared i }.setThread i (.running .nothing))
    | .running .exclusive =>
      if i = none ∧ s.size ≠ 0 then none
      else some ({ s with mMutex := s.mMutex.unlock }.setThread i (.running .nothing))
    | _ => none
  | .request i =>
    match s.threads i with
    | .running held =>
      -- It goes to `mQueueInternal`.
      if s.mCurrentRWHolderOfMMutex = some i then some s
      else if i = none ∧ held = .nothing then none
      else some (s.setThread i (.pushing held))
    | _ => none
  | .push i =>
    match s.threads i with
    | .pushing held =>
      if s.size < capacity then some ({ s with size := s.size + 1 }.setThread i (.running held))
      else none
    | _ => none
  | .execute =>
    if s.threads none = .running .exclusive ∧ 0 < s.size then some { s with size := s.size - 1 }
    else none

/-! ## Who holds the lock -/

structure Sound (capacity : Nat) (s : BoundedQueue ι) : Prop where
  sharers : ∀ i, i ∈ s.mMutex.sharers ↔ (s.threads i).held = .shared
  exclusive : s.mMutex.exclusive = true ↔ ∃ i, (s.threads i).held = .exclusive
  unique : ∀ i j, (s.threads i).held = .exclusive → (s.threads j).held = .exclusive → i = j
  worker : s.threads none ≠ .pushing .nothing
  size_le : s.size ≤ capacity

variable {capacity : Nat} {s t : BoundedQueue ι} {i : Option ι} {thread : QueueThread}

omit [DecidableEq ι] in
theorem sound_initial (capacity : Nat) : Sound capacity ({} : BoundedQueue ι) where
  sharers := fun _ => iff_of_false (Finset.notMem_empty _) Held.noConfusion
  exclusive := iff_of_false Bool.false_ne_true fun ⟨_, h⟩ => by cases h
  unique := fun _ _ h => by cases h
  worker := QueueThread.noConfusion
  size_le := Nat.zero_le _

theorem threads_setThread (s : BoundedQueue ι) (i j : Option ι) (thread : QueueThread) :
    (s.setThread i thread).threads j = if j = i then thread else s.threads j := by
  show Function.update s.threads i thread j = _
  rw [Function.update_apply]

omit [DecidableEq ι] in
/-- Nobody shares the lock when one has it for himself. -/
theorem Sound.held_of_exclusive (h : s.Sound capacity) (hi : (s.threads i).held = .exclusive)
    {j : Option ι} (hj : (s.threads j).held ≠ .nothing) : j = i := by
  have hexclusive : s.mMutex.exclusive = true := h.exclusive.mpr ⟨i, hi⟩
  cases hheld : (s.threads j).held with
  | nothing => exact absurd hheld hj
  | shared =>
      have hmem := (h.sharers j).mpr hheld
      rw [s.mMutex.alone hexclusive] at hmem
      cases hmem
  | exclusive => exact h.unique j i hheld hi

/-- A thread goes on, and keeps what it has of the lock. -/
theorem Sound.setThread (h : s.Sound capacity) (hheld : thread.held = (s.threads i).held)
    (hworker : i = none → thread ≠ .pushing .nothing) : (s.setThread i thread).Sound capacity := by
  have hsame : ∀ j, ((s.setThread i thread).threads j).held = (s.threads j).held := by
    intro j
    rw [threads_setThread]
    split
    · next hj => rw [hj, hheld]
    · rfl
  refine ⟨fun j => ?_, ?_, fun j k => ?_, ?_, h.size_le⟩
  · rw [hsame]
    exact h.sharers j
  · simp only [hsame]
    exact h.exclusive
  · rw [hsame, hsame]
    exact h.unique j k
  · rw [threads_setThread]
    split
    · next hi => exact hworker hi.symm
    · exact h.worker

/-- A thread takes the lock or lets go of it. -/
theorem Sound.setLock (h : s.Sound capacity) {m : SharedMutex (Option ι)} {held : Held}
    (hsharers : ∀ j, j ∈ m.sharers ↔ if j = i then held = .shared else j ∈ s.mMutex.sharers)
    (hexclusive : m.exclusive = true ↔ held = .exclusive)
    (hothers : ∀ j, j ≠ i → (s.threads j).held ≠ .exclusive) :
    ({ s with mMutex := m }.setThread i (.running held)).Sound capacity := by
  have hthreads : ∀ j, (({ s with mMutex := m }.setThread i (.running held)).threads j).held =
      if j = i then held else (s.threads j).held := by
    intro j
    rw [threads_setThread]
    split
    · rfl
    · rfl
  have honly : ∀ j, (if j = i then held else (s.threads j).held) = .exclusive → j = i := by
    intro j hj
    by_contra hji
    rw [if_neg hji] at hj
    exact hothers j hji hj
  refine ⟨fun j => ?_, ?_, fun j k hj hk => ?_, ?_, h.size_le⟩
  · rw [hthreads]
    refine (hsharers j).trans ?_
    split
    · exact Iff.rfl
    · exact h.sharers j
  · simp only [hthreads]
    refine hexclusive.trans ⟨fun hheld => ⟨i, (if_pos rfl).trans hheld⟩, fun ⟨j, hj⟩ => ?_⟩
    have hji := honly j hj
    rwa [if_pos hji] at hj
  · rw [hthreads] at hj hk
    exact (honly j hj).trans (honly k hk).symm
  · rw [threads_setThread]
    split
    · exact QueueThread.noConfusion
    · exact h.worker

theorem Sound.step (h : s.Sound capacity) {action : QueueAction ι}
    (hstep : s.step capacity action = some t) : t.Sound capacity := by
  cases action with
  | lockShared i =>
      obtain ⟨hi, heq⟩ := Option.ite_none_right_eq_some.mp hstep
      cases heq
      exact h.setThread (by rw [hi]; rfl) fun _ => QueueThread.noConfusion
  | lock i =>
      obtain ⟨hi, heq⟩ := Option.ite_none_right_eq_some.mp hstep
      cases heq
      exact h.setThread (by rw [hi]; rfl) fun _ => QueueThread.noConfusion
  | acquire i =>
      simp only [BoundedQueue.step] at hstep
      split at hstep
      · obtain ⟨m, hm, rfl⟩ := Option.map_eq_some_iff.mp hstep
        obtain ⟨hfree, rfl⟩ := SharedMutex.lockShared_eq_some_iff.mp hm
        refine h.setLock (fun j => ?_) (iff_of_false Bool.false_ne_true Held.noConfusion)
          fun j _ hj => ?_
        · rw [SharedMutex.mem_lockShared hm]
          split
          · next hj => exact iff_of_true (.inl hj) rfl
          · next hj => exact or_iff_right hj
        · rw [h.exclusive.mpr ⟨j, hj⟩] at hfree
          cases hfree
      · obtain ⟨m, hm, rfl⟩ := Option.map_eq_some_iff.mp hstep
        obtain ⟨hnobody, hfree, rfl⟩ := SharedMutex.tryLock_eq_some_iff.mp hm
        refine h.setLock (fun j => ?_) (iff_of_true rfl rfl) fun j _ hj => ?_
        · refine iff_of_false (Finset.notMem_empty _) ?_
          split
          · exact Held.noConfusion
          · rw [hnobody]
            exact Finset.notMem_empty _
        · rw [h.exclusive.mpr ⟨j, hj⟩] at hfree
          cases hfree
      · cases hstep
  | setHolder i =>
      obtain ⟨-, heq⟩ := Option.ite_none_right_eq_some.mp hstep
      cases heq
      exact ⟨h.sharers, h.exclusive, h.unique, h.worker, h.size_le⟩
  | resetHolder =>
      cases hstep
      exact ⟨h.sharers, h.exclusive, h.unique, h.worker, h.size_le⟩
  | unlock i =>
      simp only [BoundedQueue.step] at hstep
      split at hstep
      · next hi =>
          cases hstep
          have hshares : (s.threads i).held = .shared := by rw [hi]; rfl
          have hnone : ∀ j, (s.threads j).held ≠ .exclusive := by
            intro j hj
            have hij := h.held_of_exclusive hj (by rw [hshares]; exact Held.noConfusion)
            rw [← hij, hshares] at hj
            cases hj
          refine h.setLock (fun j => ?_) ?_ fun j _ => hnone j
          · rw [SharedMutex.mem_unlockShared]
            split
            · next hj => exact iff_of_false (fun hmem => hmem.1 hj) Held.noConfusion
            · next hj => exact and_iff_right hj
          · refine iff_of_false (fun hexclusive => ?_) Held.noConfusion
            obtain ⟨j, hj⟩ := h.exclusive.mp hexclusive
            exact hnone j hj
      · next hi =>
          split at hstep
          · cases hstep
          · cases hstep
            have howns : (s.threads i).held = .exclusive := by rw [hi]; rfl
            refine h.setLock (fun j => ?_) (iff_of_false Bool.false_ne_true Held.noConfusion)
              fun j hji hj => hji (h.unique j i hj howns)
            show j ∈ s.mMutex.sharers ↔ _
            rw [s.mMutex.alone (h.exclusive.mpr ⟨i, howns⟩)]
            refine iff_of_false (Finset.notMem_empty _) ?_
            split
            · exact Held.noConfusion
            · exact Finset.notMem_empty _
      · cases hstep
  | request i =>
      simp only [BoundedQueue.step] at hstep
      split at hstep
      · next held hi =>
          split at hstep
          · cases hstep
            exact h
          · split at hstep
            · cases hstep
            · next hmay =>
                cases hstep
                refine h.setThread (by rw [hi]; rfl) ?_
                rintro hworker heq
                cases heq
                exact hmay ⟨hworker, rfl⟩
      · cases hstep
  | push i =>
      simp only [BoundedQueue.step] at hstep
      split at hstep
      · next held hi =>
          obtain ⟨hroom, heq⟩ := Option.ite_none_right_eq_some.mp hstep
          cases heq
          have hpushed : Sound capacity { s with size := s.size + 1 } :=
            ⟨h.sharers, h.exclusive, h.unique, h.worker, hroom⟩
          exact hpushed.setThread (by rw [hi]; rfl) fun _ => QueueThread.noConfusion
      · cases hstep
  | execute =>
      obtain ⟨-, heq⟩ := Option.ite_none_right_eq_some.mp hstep
      cases heq
      exact ⟨h.sharers, h.exclusive, h.unique, h.worker, (Nat.sub_le _ _).trans h.size_le⟩

end

/-! ## Room for those who wait with the lock -/

section

variable {ι : Type*} [DecidableEq ι] [Fintype ι]

/-- How many threads wait at the queue and have the lock. -/
def inside (s : BoundedQueue ι) : Nat := ∑ i, (s.threads i).isInside.toNat

/-- There is room for all of them. -/
def HasRoom (capacity : Nat) (s : BoundedQueue ι) : Prop := s.size + s.inside ≤ capacity

instance (capacity : Nat) (s : BoundedQueue ι) : Decidable (s.HasRoom capacity) :=
  inferInstanceAs (Decidable (_ ≤ _))

/-- Some step leads from one state to the other. -/
def Steps (capacity : Nat) (s t : BoundedQueue ι) : Prop := ∃ action, s.step capacity action = some t

/-- No request is left, and every thread has finished. -/
structure Settled (s : BoundedQueue ι) : Prop where
  size_eq : s.size = 0
  threads_eq : ∀ i, s.threads i = .running .nothing

/-- Everything can still be finished. -/
def CanSettle (capacity : Nat) (s : BoundedQueue ι) : Prop :=
  ∃ t, Relation.ReflTransGen (Steps capacity) s t ∧ t.Settled

variable {capacity : Nat} {s t : BoundedQueue ι} {i : Option ι} {thread : QueueThread}

theorem inside_setThread (s : BoundedQueue ι) (i : Option ι) (thread : QueueThread) :
    (s.setThread i thread).inside + (s.threads i).isInside.toNat =
      s.inside + thread.isInside.toNat :=
  Progress.sum_update (fun thread : QueueThread => thread.isInside.toNat) s.threads i thread

omit [DecidableEq ι] in
theorem inside_eq_zero (h : ∀ i, (s.threads i).isInside = false) : s.inside = 0 :=
  Finset.sum_eq_zero fun i _ => by rw [h i]; rfl

omit [DecidableEq ι] in
theorem inside_pos (hi : (s.threads i).isInside = true) : 0 < s.inside := by
  have hle : (s.threads i).isInside.toNat ≤ s.inside :=
    Finset.single_le_sum (f := fun i => (s.threads i).isInside.toNat)
      (fun _ _ => Nat.zero_le _) (Finset.mem_univ i)
  rw [hi] at hle
  exact hle

omit [DecidableEq ι] in
/-- While the worker thread executes requests nobody else is inside. -/
theorem Sound.inside_of_draining (h : s.Sound capacity)
    (hworker : s.threads none = .running .exclusive) : s.inside = 0 := by
  refine inside_eq_zero fun i => ?_
  by_contra hinside
  have hheld : (s.threads i).held ≠ .nothing := by
    intro hnothing
    cases hi : s.threads i with
    | pushing held =>
        rw [hi] at hnothing hinside
        cases hnothing
        exact hinside rfl
    | _ =>
        rw [hi] at hinside
        exact hinside rfl
  have hi : i = none := h.held_of_exclusive (by rw [hworker]; rfl) hheld
  rw [hi, hworker] at hinside
  exact hinside rfl

/-- A thread does something, and the queue has the requests it has then. -/
theorem inside_move {s' : BoundedQueue ι} (hthreads : s'.threads = s.threads) (i : Option ι)
    (thread : QueueThread) :
    (s'.setThread i thread).inside + (s.threads i).isInside.toNat =
      s.inside + thread.isInside.toNat := by
  have hmove := inside_setThread s' i thread
  unfold inside at hmove ⊢
  rwa [hthreads] at hmove

/-- A thread goes on, and does not make room. -/
theorem hasRoom_of_move {s' : BoundedQueue ι} (hthreads : s'.threads = s.threads)
    (hroom : (s'.setThread i thread).HasRoom capacity)
    (hle : s.size + (s.threads i).isInside.toNat ≤ s'.size + thread.isInside.toNat) :
    s.HasRoom capacity := by
  have hmove := inside_move hthreads i thread
  have hsize : (s'.setThread i thread).size = s'.size := rfl
  unfold HasRoom at hroom ⊢
  omega

/-- Where there is no room, there will be none. -/
theorem Sound.hasRoom_of_step (h : s.Sound capacity) {action : QueueAction ι}
    (hstep : s.step capacity action = some t) (hroom : t.HasRoom capacity) :
    s.HasRoom capacity := by
  cases action with
  | lockShared i =>
      obtain ⟨hi, heq⟩ := Option.ite_none_right_eq_some.mp hstep
      cases heq
      exact hasRoom_of_move rfl hroom (by rw [hi]; exact Nat.le_refl _)
  | lock i =>
      obtain ⟨hi, heq⟩ := Option.ite_none_right_eq_some.mp hstep
      cases heq
      exact hasRoom_of_move rfl hroom (by rw [hi]; exact Nat.le_refl _)
  | acquire i =>
      simp only [BoundedQueue.step] at hstep
      split at hstep
      · next hi =>
          obtain ⟨m, -, rfl⟩ := Option.map_eq_some_iff.mp hstep
          exact hasRoom_of_move rfl hroom (by rw [hi]; exact Nat.le_refl _)
      · next hi =>
          obtain ⟨m, -, rfl⟩ := Option.map_eq_some_iff.mp hstep
          exact hasRoom_of_move rfl hroom (by rw [hi]; exact Nat.le_refl _)
      · cases hstep
  | setHolder i =>
      obtain ⟨-, heq⟩ := Option.ite_none_right_eq_some.mp hstep
      cases heq
      exact hroom
  | resetHolder =>
      cases hstep
      exact hroom
  | unlock i =>
      simp only [BoundedQueue.step] at hstep
      split at hstep
      · next hi =>
          cases hstep
          exact hasRoom_of_move rfl hroom (by rw [hi]; exact Nat.le_refl _)
      · next hi =>
          split at hstep
          · cases hstep
          · cases hstep
            exact hasRoom_of_move rfl hroom (by rw [hi]; exact Nat.le_refl _)
      · cases hstep
  | request i =>
      simp only [BoundedQueue.step] at hstep
      split at hstep
      · next held hi =>
          split at hstep
          · cases hstep
            exact hroom
          · split at hstep
            · cases hstep
            · cases hstep
              refine hasRoom_of_move rfl hroom ?_
              rw [hi]
              exact Nat.add_le_add_left (Nat.zero_le _) _
      · cases hstep
  | push i =>
      simp only [BoundedQueue.step] at hstep
      split at hstep
      · next held hi =>
          obtain ⟨-, heq⟩ := Option.ite_none_right_eq_some.mp hstep
          cases heq
          -- It is no longer inside, and the queue has one request more.
          have hsame : threads { s with size := s.size + 1 } = s.threads := rfl
          exact hasRoom_of_move hsame hroom (Nat.add_le_add_left (Bool.toNat_le _) _)
      · cases hstep
  | execute =>
      obtain ⟨⟨hworker, -⟩, -⟩ := Option.ite_none_right_eq_some.mp hstep
      unfold HasRoom
      rw [h.inside_of_draining hworker]
      exact h.size_le

theorem Sound.hasRoom_of_canSettle (h : s.Sound capacity) (hsettle : s.CanSettle capacity) :
    s.HasRoom capacity := by
  obtain ⟨t, hreaches, hsettled⟩ := hsettle
  induction hreaches using Relation.ReflTransGen.head_induction_on with
  | refl =>
      have hnobody : t.inside = 0 := inside_eq_zero fun i => by rw [hsettled.threads_eq i]; rfl
      unfold HasRoom
      rw [hsettled.size_eq, hnobody]
      exact Nat.zero_le _
  | head hstep _ ih =>
      obtain ⟨action, haction⟩ := hstep
      exact h.hasRoom_of_step haction (ih (h.step haction))

/-! ## Coming nearer to the end -/

/-- How much there is still to do. -/
def work (s : BoundedQueue ι) : Nat := ∑ i, (s.threads i).rank + 2 * s.size

/-- There is a state that is nearer to the end, still with room for all. -/
def CanGoOn (capacity : Nat) (s : BoundedQueue ι) : Prop :=
  ∃ t, Relation.ReflTransGen (Steps capacity) s t ∧ (t.Sound capacity ∧ t.HasRoom capacity) ∧
    t.work < s.work

theorem work_move {s' : BoundedQueue ι} (hthreads : s'.threads = s.threads) (i : Option ι)
    (thread : QueueThread) :
    (s'.setThread i thread).work + (s.threads i).rank + 2 * s.size =
      s.work + thread.rank + 2 * s'.size := by
  have hsum : ∑ j, ((s'.setThread i thread).threads j).rank + (s.threads i).rank =
      ∑ j, (s.threads j).rank + thread.rank := by
    rw [← hthreads]
    exact Progress.sum_update QueueThread.rank s'.threads i thread
  have hsize : (s'.setThread i thread).size = s'.size := rfl
  unfold work
  omega

/-- A step that one thread takes, and after which it has less to do. -/
theorem Sound.canGoOn_of_move (h : s.Sound capacity) {s' : BoundedQueue ι} {action : QueueAction ι}
    (hstep : s.step capacity action = some (s'.setThread i thread))
    (hthreads : s'.threads = s.threads)
    (hroom : s'.size + s.inside + thread.isInside.toNat ≤
      capacity + (s.threads i).isInside.toNat)
    (hlt : thread.rank + 2 * s'.size < (s.threads i).rank + 2 * s.size) :
    s.CanGoOn capacity := by
  have hinside := inside_move hthreads i thread
  have hwork := work_move hthreads i thread
  have hsize : (s'.setThread i thread).size = s'.size := rfl
  refine ⟨_, .single ⟨action, hstep⟩, ⟨h.step hstep, ?_⟩, ?_⟩
  · unfold HasRoom
    omega
  · omega

theorem rank_running {held : Held} (hheld : held ≠ .nothing) :
    QueueThread.rank (.running held) = 1 ∧ QueueThread.rank (.pushing held) = 4 ∧
      QueueThread.isInside (.pushing held) = true := by
  cases held with
  | nothing => exact absurd rfl hheld
  | shared => exact ⟨rfl, rfl, rfl⟩
  | exclusive => exact ⟨rfl, rfl, rfl⟩

/-- One that waits at the queue with the lock finds room. -/
theorem Sound.canGoOn_of_inside (h : s.Sound capacity) (hroom : s.HasRoom capacity) {held : Held}
    (hheld : held ≠ .nothing) (hi : s.threads i = .pushing held) : s.CanGoOn capacity := by
  obtain ⟨hrunning, hpushing, hisInside⟩ := rank_running hheld
  have hpos : 0 < s.inside := inside_pos (hi ▸ hisInside)
  unfold HasRoom at hroom
  have hstep : s.step capacity (.push i) =
      some (BoundedQueue.setThread { s with size := s.size + 1 } i (.running held)) := by
    simp only [BoundedQueue.step, hi]
    exact if_pos (by omega)
  refine h.canGoOn_of_move hstep rfl ?_ ?_
  · rw [hi, hisInside]
    show s.size + 1 + s.inside + 0 ≤ capacity + 1
    omega
  · rw [hi, hrunning, hpushing]
    show 1 + 2 * (s.size + 1) < 4 + 2 * s.size
    omega

/-- One that has the lock gives it up, or is the worker thread and executes a request. -/
theorem Sound.canGoOn_of_running (h : s.Sound capacity) (hroom : s.HasRoom capacity) {held : Held}
    (hheld : held ≠ .nothing) (hi : s.threads i = .running held) : s.CanGoOn capacity := by
  have hgives : ∀ m, s.step capacity (.unlock i) =
      some (BoundedQueue.setThread { s with mMutex := m } i (.running .nothing)) → s.CanGoOn capacity := by
    intro m hstep
    refine h.canGoOn_of_move hstep rfl (Nat.add_le_add hroom (Nat.zero_le _)) ?_
    rw [hi, (rank_running hheld).1]
    exact Nat.add_lt_add_right Nat.zero_lt_one _
  cases held with
  | nothing => exact absurd rfl hheld
  | shared => exact hgives (s.mMutex.unlockShared i) (by simp only [BoundedQueue.step, hi])
  | exclusive =>
      by_cases hdrains : i = none ∧ s.size ≠ 0
      · obtain ⟨rfl, hsize⟩ := hdrains
        have hstep : s.step capacity .execute = some { s with size := s.size - 1 } :=
          if_pos ⟨hi, Nat.pos_of_ne_zero hsize⟩
        refine ⟨_, .single ⟨_, hstep⟩, ⟨h.step hstep, ?_⟩, ?_⟩
        · exact (Nat.add_le_add_right (Nat.sub_le _ _) _).trans hroom
        · unfold work
          show ∑ i, (s.threads i).rank + 2 * (s.size - 1) < _
          omega
      · refine hgives s.mMutex.unlock ?_
        simp only [BoundedQueue.step, hi]
        exact if_neg hdrains

omit [DecidableEq ι] [Fintype ι] in
/-- When nobody has the lock, one who waits for it gets it. -/
theorem Sound.mMutex_free (h : s.Sound capacity) (hnobody : ∀ i, (s.threads i).held = .nothing) :
    s.mMutex.sharers = ∅ ∧ s.mMutex.exclusive = false := by
  constructor
  · refine Finset.eq_empty_of_forall_notMem fun i hi => ?_
    rw [h.sharers, hnobody] at hi
    cases hi
  · rw [← Bool.not_eq_true, h.exclusive]
    rintro ⟨i, hi⟩
    rw [hnobody] at hi
    cases hi

omit [Fintype ι] in
theorem Sound.step_acquire (h : s.Sound capacity) (hnobody : ∀ i, (s.threads i).held = .nothing)
    (hi : s.threads i = .locking) :
    s.step capacity (.acquire i) = some
      (BoundedQueue.setThread { s with mMutex := { exclusive := true } } i
        (.running .exclusive)) := by
  obtain ⟨hsharers, hexclusive⟩ := h.mMutex_free hnobody
  have hlocked := SharedMutex.tryLock_eq_some_iff.mpr ⟨hsharers, hexclusive, rfl⟩
  simp only [BoundedQueue.step, hi, hlocked, Option.map_some]

omit [Fintype ι] in
theorem Sound.step_acquireShared (h : s.Sound capacity)
    (hnobody : ∀ i, (s.threads i).held = .nothing) (hi : s.threads i = .lockingShared) :
    s.step capacity (.acquire i) = some
      (BoundedQueue.setThread
        { s with mMutex := SharedMutex.shared (insert i s.mMutex.sharers) } i
        (.running .shared)) := by
  have hexclusive := (h.mMutex_free hnobody).2
  have hlocked := (SharedMutex.lockShared_eq_some_iff (i := i)).mpr ⟨hexclusive, rfl⟩
  simp only [BoundedQueue.step, hi, hlocked, Option.map_some]

theorem Sound.canGoOn_of_locking (h : s.Sound capacity) (hroom : s.HasRoom capacity)
    (hnobody : ∀ i, (s.threads i).held = .nothing)
    (hi : s.threads i = .locking ∨ s.threads i = .lockingShared) : s.CanGoOn capacity := by
  cases hi with
  | inl hi =>
      refine h.canGoOn_of_move (h.step_acquire hnobody hi) rfl
        (Nat.add_le_add hroom (Nat.zero_le _)) ?_
      rw [hi]
      exact Nat.add_lt_add_right Nat.one_lt_two _
  | inr hi =>
      refine h.canGoOn_of_move (h.step_acquireShared hnobody hi) rfl
        (Nat.add_le_add hroom (Nat.zero_le _)) ?_
      rw [hi]
      exact Nat.add_lt_add_right Nat.one_lt_two _

/-- The worker thread takes the lock. -/
theorem Sound.exists_draining (h : s.Sound capacity) (hnobody : ∀ i, (s.threads i).held = .nothing)
    (hworker : s.threads none = .running .nothing) :
    ∃ t, Relation.ReflTransGen (Steps capacity) s t ∧ t.Sound capacity ∧
      t.threads none = .running .exclusive ∧ t.size = s.size ∧ t.work = s.work + 1 := by
  obtain ⟨s', hs'⟩ : ∃ s', s' = s.setThread none .locking := ⟨_, rfl⟩
  have hlock : s.step capacity (.lock none) = some s' := hs' ▸ if_pos hworker
  have hlocking : s'.threads none = .locking := by rw [hs', threads_setThread, if_pos rfl]
  have hnobody' : ∀ i, (s'.threads i).held = .nothing := by
    intro i
    rw [hs', threads_setThread]
    split
    · rfl
    · exact hnobody i
  have hacquire := (h.step hlock).step_acquire hnobody' hlocking
  have hwork : s'.work + 0 + 2 * s.size = s.work + 2 + 2 * s.size := by
    have hmove := work_move (rfl : s.threads = s.threads) none .locking
    rw [hworker, ← hs'] at hmove
    exact hmove
  have hsame : threads { s' with mMutex := { exclusive := true } } = s'.threads := rfl
  have hwork' := work_move hsame none (.running .exclusive)
  rw [hlocking] at hwork'
  refine ⟨_, .tail (.single ⟨_, hlock⟩) ⟨_, hacquire⟩, (h.step hlock).step hacquire, ?_, ?_, ?_⟩
  · rw [threads_setThread, if_pos rfl]
  · rw [hs']
    rfl
  · have hlocked : QueueThread.rank .locking = 2 := rfl
    have hdrains : QueueThread.rank (.running .exclusive) = 1 := rfl
    have hsize : size { s' with mMutex := { exclusive := true } } = s'.size := rfl
    omega

/-- And then a request. -/
theorem Sound.canGoOn_of_idle (h : s.Sound capacity)
    (hnobody : ∀ i, (s.threads i).held = .nothing) (hworker : s.threads none = .running .nothing)
    (hsize : 0 < s.size) : s.CanGoOn capacity := by
  obtain ⟨t, hreaches, ht, hdrains, htsize, hwork⟩ := h.exists_draining hnobody hworker
  have hstep : t.step capacity .execute = some { t with size := t.size - 1 } :=
    if_pos ⟨hdrains, htsize ▸ hsize⟩
  have hsound := ht.step hstep
  refine ⟨_, hreaches.tail ⟨_, hstep⟩, ⟨hsound, ?_⟩, ?_⟩
  · have hnone : inside { t with size := t.size - 1 } = 0 := hsound.inside_of_draining hdrains
    unfold HasRoom
    rw [hnone]
    exact hsound.size_le
  · have hless : work { t with size := t.size - 1 } + 2 = t.work := by
      unfold work
      show ∑ i, (t.threads i).rank + 2 * (t.size - 1) + 2 = _
      omega
    omega

theorem Sound.canGoOn (h : s.Sound capacity) (hcapacity : 0 < capacity) (hroom : s.HasRoom capacity)
    (hsettled : ¬ s.Settled) : s.CanGoOn capacity := by
  -- Who has the lock goes on first, then who waits for it.
  by_cases hholds : ∃ i, (s.threads i).held ≠ .nothing
  · obtain ⟨i, hheld⟩ := hholds
    cases hi : s.threads i with
    | running held => exact h.canGoOn_of_running hroom (by rwa [hi] at hheld) hi
    | pushing held => exact h.canGoOn_of_inside hroom (by rwa [hi] at hheld) hi
    | _ =>
        rw [hi] at hheld
        exact absurd rfl hheld
  have hnobody : ∀ i, (s.threads i).held = .nothing := by
    intro i
    by_contra hheld
    exact hholds ⟨i, hheld⟩
  by_cases hlocks : ∃ i, s.threads i = .locking ∨ s.threads i = .lockingShared
  · obtain ⟨i, hi⟩ := hlocks
    exact h.canGoOn_of_locking hroom hnobody hi
  have hrest : ∀ i, s.threads i = .running .nothing ∨ s.threads i = .pushing .nothing := by
    intro i
    have hheld := hnobody i
    cases hi : s.threads i with
    | running held =>
        rw [hi] at hheld
        exact .inl (congrArg QueueThread.running hheld)
    | pushing held =>
        rw [hi] at hheld
        exact .inr (congrArg QueueThread.pushing hheld)
    | locking => exact absurd ⟨i, .inl hi⟩ hlocks
    | lockingShared => exact absurd ⟨i, .inr hi⟩ hlocks
  by_cases hempty : s.size = 0
  · -- Only those are left who wait at the queue, and there is room in it.
    obtain ⟨i, hi⟩ : ∃ i, s.threads i ≠ .running .nothing := by
      by_contra hnone
      exact hsettled ⟨hempty, fun i => not_not.mp fun hi => hnone ⟨i, hi⟩⟩
    have hpushing := (hrest i).resolve_left hi
    have hnone : s.inside = 0 := inside_eq_zero fun j => by
      rcases hrest j with hj | hj
      · rw [hj]; rfl
      · rw [hj]; rfl
    have hstep : s.step capacity (.push i) =
        some (BoundedQueue.setThread { s with size := s.size + 1 } i (.running .nothing)) := by
      simp only [BoundedQueue.step, hpushing]
      exact if_pos (hempty ▸ hcapacity)
    refine h.canGoOn_of_move hstep rfl ?_ ?_
    · rw [hpushing]
      show s.size + 1 + s.inside + 0 ≤ capacity + 0
      omega
    · rw [hpushing]
      show 0 + 2 * (s.size + 1) < 3 + 2 * s.size
      omega
  · exact h.canGoOn_of_idle hnobody ((hrest none).resolve_right h.worker)
      (Nat.pos_of_ne_zero hempty)

theorem Sound.canSettle_iff (h : s.Sound capacity) (hcapacity : 0 < capacity) :
    s.CanSettle capacity ↔ s.HasRoom capacity := by
  refine ⟨h.hasRoom_of_canSettle, fun hroom => ?_⟩
  have hnearer : ∀ s : BoundedQueue ι, s.Sound capacity ∧ s.HasRoom capacity → ¬ s.Settled →
      s.CanGoOn capacity := fun s hs => hs.1.canGoOn hcapacity hs.2
  obtain ⟨t, hreaches, -, hsettled⟩ := Progress.exists_goal work hnearer ⟨h, hroom⟩
  exact ⟨t, hreaches, hsettled⟩

/-! ## Requests from outside -/

/-- One that has the lock is its recorded holder when it makes a request. -/
def RequestsOutside (s : BoundedQueue ι) : QueueAction ι → Prop
  | .request i => s.mCurrentRWHolderOfMMutex = some i ∨ (s.threads i).held = .nothing
  | _ => True

instance (s : BoundedQueue ι) (action : QueueAction ι) : Decidable (s.RequestsOutside action) := by
  cases action <;> unfold RequestsOutside <;> infer_instance

omit [Fintype ι] in
theorem isInside_of_move {s' : BoundedQueue ι} (hthreads : s'.threads = s.threads)
    (h : ∀ j, (s.threads j).isInside = false) (hthread : thread.isInside = false) (j : Option ι) :
    ((s'.setThread i thread).threads j).isInside = false := by
  rw [threads_setThread, hthreads]
  split
  · exact hthread
  · exact h j

omit [Fintype ι] in
/-- So nobody comes to wait at the queue with the lock. -/
theorem isInside_of_step {action : QueueAction ι} (h : ∀ j, (s.threads j).isInside = false)
    (houtside : s.RequestsOutside action) (hstep : s.step capacity action = some t)
    (j : Option ι) : (t.threads j).isInside = false := by
  cases action with
  | lockShared i =>
      obtain ⟨-, heq⟩ := Option.ite_none_right_eq_some.mp hstep
      cases heq
      exact isInside_of_move rfl h rfl j
  | lock i =>
      obtain ⟨-, heq⟩ := Option.ite_none_right_eq_some.mp hstep
      cases heq
      exact isInside_of_move rfl h rfl j
  | acquire i =>
      simp only [BoundedQueue.step] at hstep
      split at hstep
      · obtain ⟨m, -, rfl⟩ := Option.map_eq_some_iff.mp hstep
        exact isInside_of_move rfl h rfl j
      · obtain ⟨m, -, rfl⟩ := Option.map_eq_some_iff.mp hstep
        exact isInside_of_move rfl h rfl j
      · cases hstep
  | setHolder i =>
      obtain ⟨-, heq⟩ := Option.ite_none_right_eq_some.mp hstep
      cases heq
      exact h j
  | resetHolder =>
      cases hstep
      exact h j
  | unlock i =>
      simp only [BoundedQueue.step] at hstep
      split at hstep
      · cases hstep
        exact isInside_of_move rfl h rfl j
      · split at hstep
        · cases hstep
        · cases hstep
          exact isInside_of_move rfl h rfl j
      · cases hstep
  | request i =>
      simp only [BoundedQueue.step] at hstep
      split at hstep
      · next held hi =>
          split at hstep
          · cases hstep
            exact h j
          · next hother =>
              split at hstep
              · cases hstep
              · cases hstep
                have hheld : held = .nothing := by
                  have hnothing := houtside.resolve_left hother
                  rwa [hi] at hnothing
                exact isInside_of_move rfl h (by rw [hheld]; rfl) j
      · cases hstep
  | push i =>
      simp only [BoundedQueue.step] at hstep
      split at hstep
      · obtain ⟨-, heq⟩ := Option.ite_none_right_eq_some.mp hstep
        cases heq
        have hsame : threads { s with size := s.size + 1 } = s.threads := rfl
        exact isInside_of_move hsame h rfl j
      · cases hstep
  | execute =>
      obtain ⟨-, heq⟩ := Option.ite_none_right_eq_some.mp hstep
      cases heq
      exact h j

/-- In every state of every run everything can still be finished exactly while there is room
for those who wait at the queue with the lock. There always is if nobody makes a request with
the lock but its recorded holder. -/
theorem settles_of_isRun (hcapacity : 0 < capacity)
    {run : List (QueueAction ι × BoundedQueue ι)}
    (hrun : Runs.IsRun (Runs.StepOf (step capacity)) {} run) :
    Runs.AllStates (fun t => t.CanSettle capacity ↔ t.HasRoom capacity) run ∧
      (Runs.AllSteps RequestsOutside {} run → Runs.AllStates (CanSettle capacity) run) := by
  have hsound : Runs.AllStates (Sound capacity) run :=
    hrun.invariant (fun _ _ _ h hstep => h.step hstep) (sound_initial capacity)
  refine ⟨fun x hx => (hsound x hx).canSettle_iff hcapacity, fun houtside x hx => ?_⟩
  have hnobody : Runs.AllStates (fun t : BoundedQueue ι => ∀ i, (t.threads i).isInside = false) run :=
    hrun.invariant_of_allSteps (fun _ _ _ h hc hstep => isInside_of_step h hc hstep)
      (fun _ => rfl) houtside
  refine ((hsound x hx).canSettle_iff hcapacity).mpr ?_
  unfold HasRoom
  rw [inside_eq_zero (hnobody x hx)]
  exact (hsound x hx).size_le

end

end BoundedQueue

/-- A thread makes two requests with the lock, of which it is no longer the recorded holder:
the worker thread has reset it. The queue has room for one. A thread without the lock waits
until the worker thread has executed the first. -/
theorem BoundedQueue.settles_full :
    let step : BoundedQueue (Fin 1) → QueueAction (Fin 1) → Option (BoundedQueue (Fin 1)) :=
      BoundedQueue.step 1
    let stuck := Runs.runOf step {}
      [.lock (some 0), .acquire (some 0), .setHolder (some 0), .resetHolder, .request (some 0),
        .push (some 0), .request (some 0)]
    let waits := Runs.runOf step {}
      [.request (some 0), .push (some 0), .request (some 0), .lock none, .acquire none, .execute]
    ¬ Runs.AllStates (CanSettle 1) stuck ∧ Runs.AllStates (CanSettle 1) waits := by
  intro step stuck waits
  constructor
  · intro hsettle
    have hiff := (settles_of_isRun Nat.zero_lt_one
      (Runs.isRun_runOf step {} _ : Runs.IsRun _ _ stuck)).1
    have hroom : Runs.AllStates (HasRoom 1) stuck := fun x hx => (hiff x hx).mp (hsettle x hx)
    revert hroom
    unfold Runs.AllStates
    decide +kernel
  · exact (settles_of_isRun Nat.zero_lt_one (Runs.isRun_runOf step {} _)).2 (by decide +kernel)

end NioevMqtt
