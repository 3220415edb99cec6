-- SUMMARY: The recorded holder of the application lock, access by access: in which runs it is the thread that makes requests, and none goes to the bounded queue.
import NioevMqtt.Broker.ApplicationState
import NioevMqtt.Library.Runs

/-!
# The holder of the lock

`mMutex` and `mCurrentRWHolderOfMMutex` are two variables, written one after the other.
A thread runs through the accesses of its scope; where it has the lock and has said so,
it executes change requests and makes some. A thread that has given the lock up and
resets the holder afterwards may hit upon another's entry.
-/

namespace NioevMqtt

/-- An access to the lock or to its holder. `requests` stands for whatever the thread
does in between. -/
inductive Access where
  | lock
  | setHolder
  | requests
  | resetHolder
  | unlock
deriving DecidableEq, Repr

namespace Access

/-- A scope of `UniqueLockWithAtomicTidUpdate`. Its destructor resets the holder before
that of `unique_lock` gives the lock up. `requestChange` does the same by hand for a lock
that it has tried. -/
def scope : List Access := [.lock, .setHolder, .requests, .resetHolder, .unlock]

/-- A round of `workerThreadFunc`. The destructor resets the holder once more, though it
has nothing left to give up. -/
def workerRound : List Access :=
  [.lock, .setHolder, .requests, .unlock, .resetHolder, .resetHolder]

/-- `cleanup` where there is something to erase: it gives the lock up while it suspends
the threads. -/
def cleanupPass : List Access := [.lock, .setHolder, .requests, .unlock, .resetHolder] ++ scope

/-- The lock is given up before it is taken again. -/
def hasLock : List Access → Bool
  | [] => false
  | .lock :: _ => false
  | .unlock :: _ => true
  | _ :: ahead => hasLock ahead

/-- The accesses of a scope come in an order that makes sense: requests are made by a
thread that has the lock and has just said so. -/
def Ordered : List Access → Prop
  | [] => True
  | .lock :: ahead => hasLock ahead = true ∧ ahead.head? ≠ some .requests ∧ Ordered ahead
  | .setHolder :: ahead | .requests :: ahead => hasLock ahead = true ∧ Ordered ahead
  | .resetHolder :: ahead => ahead.head? ≠ some .requests ∧ Ordered ahead
  | .unlock :: ahead => hasLock ahead = false ∧ ahead.head? ≠ some .requests ∧ Ordered ahead

instance decidableOrdered : (ahead : List Access) → Decidable (Ordered ahead)
  | [] => isTrue trivial
  | .lock :: ahead =>
    have := decidableOrdered ahead
    inferInstanceAs (Decidable (_ ∧ _ ∧ Ordered ahead))
  | .setHolder :: ahead | .requests :: ahead =>
    have := decidableOrdered ahead
    inferInstanceAs (Decidable (_ ∧ Ordered ahead))
  | .resetHolder :: ahead =>
    have := decidableOrdered ahead
    inferInstanceAs (Decidable (_ ∧ Ordered ahead))
  | .unlock :: ahead =>
    have := decidableOrdered ahead
    inferInstanceAs (Decidable (_ ∧ _ ∧ Ordered ahead))

end Access

/-- What a thread runs through. -/
def Thread.scopes : Thread → List (List Access)
  | .worker => [Access.workerRound]
  | .timers => [Access.scope, Access.cleanupPass]
  | .receiver _ | .other _ => [Access.scope]

theorem Thread.ordered_of_mem_scopes {thread : Thread} {scope : List Access}
    (hscope : scope ∈ thread.scopes) :
    Access.Ordered scope ∧ Access.hasLock scope = false ∧ scope.head? ≠ some .requests := by
  have hall : ∀ scope ∈ [Access.workerRound, Access.scope, Access.cleanupPass],
      Access.Ordered scope ∧ Access.hasLock scope = false ∧ scope.head? ≠ some .requests := by
    decide
  refine hall scope ?_
  cases thread with
  | worker => exact List.mem_cons.mpr (.inl (List.mem_singleton.mp hscope))
  | timers => exact List.mem_cons_of_mem _ hscope
  | receiver client => exact List.mem_cons_of_mem _ (List.mem_cons.mpr (.inl (List.mem_singleton.mp hscope)))
  | other id => exact List.mem_cons_of_mem _ (List.mem_cons.mpr (.inl (List.mem_singleton.mp hscope)))

structure LockedQueues (ρ : Type) where
  mMutex : Option Thread := none
  mCurrentRWHolderOfMMutex : Option Thread := none
  /-- The accesses that each thread has yet to make. -/
  ahead : Thread → List Access := fun _ => []
  mQueue : List (Thread × ρ) := []
  mQueueInternal : List (Thread × ρ) := []
  /-- The requests that went to `mQueue` from a thread that had the lock. This is
  remembered here only. -/
  pushedWithLock : List (Thread × ρ) := []

namespace LockedQueues

variable {ρ : Type}

/-! ## Steps -/

inductive Action (ρ : Type) where
  | enter (thread : Thread) (scope : List Access)
  | access (thread : Thread)
  /-- `requestChange` in a mode that does not wait for the lock. -/
  | request (thread : Thread) (change : ρ)
  | execute
  | executeInternal

/-- The thread executes change requests and makes some. -/
def Inside (q : LockedQueues ρ) (thread : Thread) : Prop :=
  (q.ahead thread).head? = some .requests

instance (q : LockedQueues ρ) (thread : Thread) : Decidable (q.Inside thread) :=
  inferInstanceAs (Decidable (_ = _))

def setAhead (q : LockedQueues ρ) (thread : Thread) (ahead : List Access) : LockedQueues ρ :=
  { q with ahead := Function.update q.ahead thread ahead }

/-- The next access of a thread. -/
def perform (q : LockedQueues ρ) (thread : Thread) : Access → Option (LockedQueues ρ)
  | .lock => if q.mMutex = none then some { q with mMutex := some thread } else none
  | .setHolder => some { q with mCurrentRWHolderOfMMutex := some thread }
  | .requests => some q
  | .resetHolder => some { q with mCurrentRWHolderOfMMutex := none }
  | .unlock => some { q with mMutex := none }

/-- The end of `requestChange`. -/
def enqueue (q : LockedQueues ρ) (thread : Thread) (change : ρ) : LockedQueues ρ :=
  if q.mCurrentRWHolderOfMMutex = some thread then
    { q with mQueueInternal := q.mQueueInternal ++ [(thread, change)] }
  else
    { q with
      mQueue := q.mQueue ++ [(thread, change)]
      pushedWithLock :=
        if q.mMutex = some thread then q.pushedWithLock ++ [(thread, change)]
        else q.pushedWithLock }

def step (q : LockedQueues ρ) : Action ρ → Option (LockedQueues ρ)
  | .enter thread scope =>
    if q.ahead thread = [] ∧ scope ∈ thread.scopes then some (q.setAhead thread scope) else none
  | .access thread =>
    match q.ahead thread with
    | [] => none
    | access :: ahead => (q.setAhead thread ahead).perform thread access
  | .request thread change =>
    if q.ahead thread = [] ∨ q.Inside thread then some (q.enqueue thread change) else none
  | .execute =>
    match q.mQueue with
    | [] => none
    | _ :: mQueue => if q.Inside .worker then some { q with mQueue := mQueue } else none
  | .executeInternal =>
    match q.mQueueInternal with
    | [] => none
    | _ :: mQueueInternal =>
      if q.Inside .worker then some { q with mQueueInternal := mQueueInternal } else none

/-- Before any thread has run. -/
def initial : LockedQueues ρ := {}

/-! ## The discipline of the lock -/

/-- A thread has the lock where its scope says so. -/
structure Disciplined (q : LockedQueues ρ) : Prop where
  ordered : ∀ thread, Access.Ordered (q.ahead thread)
  owner : ∀ thread, Access.hasLock (q.ahead thread) = true ↔ q.mMutex = some thread

/-- Whoever executes requests is the recorded holder, and makes none that goes to
`mQueue`. -/
structure Tracked (q : LockedQueues ρ) : Prop where
  holder : ∀ thread, q.Inside thread → q.mCurrentRWHolderOfMMutex = some thread
  pushed : q.pushedWithLock = []

/-- The holder is reset while no other thread that has the lock is inside. -/
def ResetsAlone (q : LockedQueues ρ) : Action ρ → Prop
  | .access thread =>
    (q.ahead thread).head? = some .resetHolder →
      ∀ other ∈ q.mMutex, other ≠ thread → ¬ q.Inside other
  | _ => True

variable {q q' : LockedQueues ρ} {thread t : Thread}

/-- What the discipline says about the next access of a thread. -/
theorem Disciplined.next (h : q.Disciplined) {access : Access} {ahead : List Access}
    (hahead : q.ahead thread = access :: ahead) :
    Access.Ordered (access :: ahead) ∧
      (Access.hasLock (access :: ahead) = true ↔ q.mMutex = some thread) := by
  rw [← hahead]
  exact ⟨h.ordered thread, h.owner thread⟩

theorem Disciplined.owner_of_inside (h : q.Disciplined) (hinside : q.Inside thread) :
    q.mMutex = some thread := by
  unfold Inside at hinside
  cases hahead : q.ahead thread with
  | nil =>
      rw [hahead] at hinside
      cases hinside
  | cons access ahead =>
      obtain ⟨hordered, howner⟩ := h.next hahead
      rw [hahead] at hinside
      cases hinside
      exact howner.mp hordered.1

/-- At most one thread is inside. -/
theorem Disciplined.inside_unique (h : q.Disciplined) (hinside : q.Inside thread)
    (howner : q.mMutex = some t) : thread = t :=
  Option.some.inj ((h.owner_of_inside hinside).symm.trans howner)

theorem setAhead_self (q : LockedQueues ρ) (thread : Thread) (ahead : List Access) :
    (q.setAhead thread ahead).ahead thread = ahead := Function.update_self _ _ _

theorem setAhead_of_ne (q : LockedQueues ρ) (ahead : List Access) (ht : t ≠ thread) :
    (q.setAhead thread ahead).ahead t = q.ahead t := Function.update_of_ne ht _ _

theorem inside_setAhead_of_ne (q : LockedQueues ρ) (ahead : List Access) (ht : t ≠ thread) :
    (q.setAhead thread ahead).Inside t ↔ q.Inside t := by
  unfold Inside
  rw [setAhead_of_ne q ahead ht]

/-- A thread goes on in its scope, and the lock changes hands as the scope says. -/
theorem Disciplined.setAhead (h : q.Disciplined) {ahead : List Access} {mMutex : Option Thread}
    {mCurrentRWHolderOfMMutex : Option Thread} (hordered : Access.Ordered ahead)
    (howner : Access.hasLock ahead = true ↔ mMutex = some thread)
    (hothers : ∀ t, t ≠ thread → (q.mMutex = some t ↔ mMutex = some t)) :
    Disciplined { q.setAhead thread ahead with
      mMutex := mMutex, mCurrentRWHolderOfMMutex := mCurrentRWHolderOfMMutex } where
  ordered := fun t => by
    by_cases ht : t = thread
    · subst ht
      exact (setAhead_self q t ahead).symm ▸ hordered
    · exact (setAhead_of_ne q ahead ht).symm ▸ h.ordered t
  owner := fun t => by
    by_cases ht : t = thread
    · subst ht
      rw [← howner]
      exact iff_of_eq (congrArg (Access.hasLock · = true) (setAhead_self q t ahead))
    · rw [← hothers t ht, ← h.owner t]
      exact iff_of_eq (congrArg (Access.hasLock · = true) (setAhead_of_ne q ahead ht))

/-! ## One step -/

/-- The cases of a step. -/
inductive Steps (q : LockedQueues ρ) : Action ρ → LockedQueues ρ → Prop
  | enter {thread scope} (hidle : q.ahead thread = []) (hscope : scope ∈ thread.scopes) :
      Steps q (.enter thread scope) (q.setAhead thread scope)
  | lock {thread ahead} (hahead : q.ahead thread = .lock :: ahead) (hfree : q.mMutex = none) :
      Steps q (.access thread) { q.setAhead thread ahead with mMutex := some thread }
  | setHolder {thread ahead} (hahead : q.ahead thread = .setHolder :: ahead) :
      Steps q (.access thread)
        { q.setAhead thread ahead with mCurrentRWHolderOfMMutex := some thread }
  | requests {thread ahead} (hahead : q.ahead thread = .requests :: ahead) :
      Steps q (.access thread) (q.setAhead thread ahead)
  | resetHolder {thread ahead} (hahead : q.ahead thread = .resetHolder :: ahead) :
      Steps q (.access thread) { q.setAhead thread ahead with mCurrentRWHolderOfMMutex := none }
  | unlock {thread ahead} (hahead : q.ahead thread = .unlock :: ahead) :
      Steps q (.access thread) { q.setAhead thread ahead with mMutex := none }
  | request {thread change} (hcalls : q.ahead thread = [] ∨ q.Inside thread) :
      Steps q (.request thread change) (q.enqueue thread change)
  | execute {mQueue} : Steps q .execute { q with mQueue := mQueue }
  | executeInternal {mQueueInternal} :
      Steps q .executeInternal { q with mQueueInternal := mQueueInternal }

theorem steps_of_step {action : Action ρ} (hstep : q.step action = some q') :
    q.Steps action q' := by
  cases action with
  | enter thread scope =>
      obtain ⟨⟨hidle, hscope⟩, hstep⟩ := Option.ite_none_right_eq_some.mp hstep
      cases hstep
      exact .enter hidle hscope
  | access thread =>
      simp only [step] at hstep
      split at hstep
      · cases hstep
      · next access ahead hahead =>
          cases access with
          | lock =>
              obtain ⟨hfree, hstep⟩ := Option.ite_none_right_eq_some.mp hstep
              cases hstep
              exact .lock hahead hfree
          | setHolder =>
              cases hstep
              exact .setHolder hahead
          | requests =>
              cases hstep
              exact .requests hahead
          | resetHolder =>
              cases hstep
              exact .resetHolder hahead
          | unlock =>
              cases hstep
              exact .unlock hahead
  | request thread change =>
      obtain ⟨hcalls, hstep⟩ := Option.ite_none_right_eq_some.mp hstep
      cases hstep
      exact .request hcalls
  | execute =>
      simp only [step] at hstep
      split at hstep
      · cases hstep
      · obtain ⟨-, hstep⟩ := Option.ite_none_right_eq_some.mp hstep
        cases hstep
        exact .execute
  | executeInternal =>
      simp only [step] at hstep
      split at hstep
      · cases hstep
      · obtain ⟨-, hstep⟩ := Option.ite_none_right_eq_some.mp hstep
        cases hstep
        exact .executeInternal

theorem enqueue_spec (q : LockedQueues ρ) (thread : Thread) (change : ρ) :
    (q.enqueue thread change).ahead = q.ahead ∧ (q.enqueue thread change).mMutex = q.mMutex ∧
      (q.enqueue thread change).mCurrentRWHolderOfMMutex = q.mCurrentRWHolderOfMMutex := by
  unfold enqueue
  split
  · exact ⟨rfl, rfl, rfl⟩
  · exact ⟨rfl, rfl, rfl⟩

theorem Disciplined.congr (h : q.Disciplined) (hahead : q'.ahead = q.ahead)
    (hmMutex : q'.mMutex = q.mMutex) : q'.Disciplined where
  ordered := hahead ▸ h.ordered
  owner := hahead ▸ hmMutex ▸ h.owner

theorem Disciplined.steps {action : Action ρ} (h : q.Disciplined) (hsteps : q.Steps action q') :
    q'.Disciplined := by
  cases hsteps with
  | @enter thread scope hidle hscope =>
      obtain ⟨hordered, hfree, -⟩ := Thread.ordered_of_mem_scopes hscope
      have hno : q.mMutex ≠ some thread := by
        rw [ne_eq, ← h.owner, hidle]
        exact Bool.false_ne_true
      refine h.setAhead hordered ?_ fun _ _ => Iff.rfl
      rw [hfree]
      exact iff_of_false Bool.false_ne_true hno
  | @lock thread ahead hahead hfree =>
      -- The lock was free, so that no other thread loses it.
      obtain ⟨hordered, -⟩ := h.next hahead
      refine h.setAhead hordered.2.2 (iff_of_true hordered.1 rfl) fun t ht => ?_
      rw [hfree]
      exact iff_of_false (Option.some_ne_none t).symm fun heq => ht (Option.some.inj heq).symm
  | @setHolder thread ahead hahead =>
      obtain ⟨hordered, howner⟩ := h.next hahead
      exact h.setAhead hordered.2 howner fun _ _ => Iff.rfl
  | @requests thread ahead hahead =>
      obtain ⟨hordered, howner⟩ := h.next hahead
      exact h.setAhead hordered.2 howner fun _ _ => Iff.rfl
  | @resetHolder thread ahead hahead =>
      obtain ⟨hordered, howner⟩ := h.next hahead
      exact h.setAhead hordered.2 howner fun _ _ => Iff.rfl
  | @unlock thread ahead hahead =>
      obtain ⟨hordered, howner⟩ := h.next hahead
      have hmine : q.mMutex = some thread := howner.mp rfl
      refine h.setAhead hordered.2.2 ?_ fun t ht => ?_
      · rw [hordered.1]
        exact iff_of_false Bool.false_ne_true (Option.some_ne_none thread).symm
      · rw [hmine]
        exact iff_of_false (fun heq => ht (Option.some.inj heq).symm) (Option.some_ne_none t).symm
  | @request thread change hcalls =>
      obtain ⟨hahead, hmMutex, -⟩ := enqueue_spec q thread change
      exact h.congr hahead hmMutex
  | execute => exact h.congr rfl rfl
  | executeInternal => exact h.congr rfl rfl

/-- A thread that goes on without coming inside leaves the others where they are. -/
theorem inside_of_setAhead {ahead : List Access} (hhead : ahead.head? ≠ some .requests)
    (hinside : (q.setAhead thread ahead).Inside t) : t ≠ thread ∧ q.Inside t := by
  have ht : t ≠ thread := by
    rintro rfl
    unfold Inside at hinside
    rw [setAhead_self] at hinside
    exact hhead hinside
  exact ⟨ht, (inside_setAhead_of_ne q ahead ht).mp hinside⟩

/-- One step keeps track of the holder exactly if it resets it while nobody else is inside. -/
theorem Tracked.steps_iff {action : Action ρ} (h : q.Tracked) (hdisciplined : q.Disciplined)
    (hsteps : q.Steps action q') : q'.Tracked ↔ q.ResetsAlone action := by
  have hother : ∀ {thread : Thread} {access : Access} {ahead : List Access},
      q.ahead thread = access :: ahead → access ≠ .resetHolder →
        q.ResetsAlone (.access thread) := by
    intro thread access ahead hahead hne heq
    rw [hahead] at heq
    exact absurd (Option.some.inj heq) hne
  cases hsteps with
  | @enter thread scope hidle hscope =>
      obtain ⟨-, -, hhead⟩ := Thread.ordered_of_mem_scopes hscope
      refine iff_of_true ⟨fun t hinside => ?_, h.pushed⟩ trivial
      exact h.holder t (inside_of_setAhead hhead hinside).2
  | @lock thread ahead hahead hfree =>
      obtain ⟨hordered, -⟩ := hdisciplined.next hahead
      refine iff_of_true ⟨fun t hinside => ?_, h.pushed⟩ (hother hahead (by decide))
      exact h.holder t (inside_of_setAhead hordered.2.1 hinside).2
  | @setHolder thread ahead hahead =>
      obtain ⟨hordered, howner⟩ := hdisciplined.next hahead
      have hmine : q.mMutex = some thread := howner.mp hordered.1
      refine iff_of_true ⟨fun t hinside => ?_, h.pushed⟩ (hother hahead (by decide))
      -- The thread has the lock, so that it is the only one inside.
      by_cases ht : t = thread
      · exact congrArg some ht.symm
      · have hold : q.Inside t := (inside_setAhead_of_ne q ahead ht).mp hinside
        exact absurd (hdisciplined.inside_unique hold hmine) ht
  | @requests thread ahead hahead =>
      refine iff_of_true ⟨fun t hinside => ?_, h.pushed⟩ (hother hahead (by decide))
      by_cases ht : t = thread
      · subst ht
        refine h.holder t ?_
        unfold Inside
        rw [hahead]
        rfl
      · exact h.holder t ((inside_setAhead_of_ne q ahead ht).mp hinside)
  | @resetHolder thread ahead hahead =>
      -- Whoever is inside is not recorded any more, and it is not this thread.
      obtain ⟨hordered, -⟩ := hdisciplined.next hahead
      constructor
      · rintro htracked - other howner hne hinside
        have hnew : Inside { q.setAhead thread ahead with mCurrentRWHolderOfMMutex := none } other :=
          (inside_setAhead_of_ne q ahead hne).mpr hinside
        cases htracked.holder other hnew
      · intro halone
        refine ⟨fun t hinside => ?_, h.pushed⟩
        obtain ⟨ht, hold⟩ := inside_of_setAhead hordered.1 hinside
        exact absurd hold (halone (by rw [hahead]; rfl) t (hdisciplined.owner_of_inside hold) ht)
  | @unlock thread ahead hahead =>
      obtain ⟨hordered, -⟩ := hdisciplined.next hahead
      refine iff_of_true ⟨fun t hinside => ?_, h.pushed⟩ (hother hahead (by decide))
      exact h.holder t (inside_of_setAhead hordered.2.1 hinside).2
  | @request thread change hcalls =>
      obtain ⟨hahead, -, hholder⟩ := enqueue_spec q thread change
      refine iff_of_true ⟨fun t hinside => ?_, ?_⟩ trivial
      · rw [hholder]
        refine h.holder t ?_
        unfold Inside at hinside ⊢
        rwa [← hahead]
      · unfold enqueue
        split
        · exact h.pushed
        · next hnot =>
            -- A thread inside is the recorded holder; this one makes its request outside.
            have houtside : q.ahead thread = [] :=
              hcalls.resolve_right fun hinside => hnot (h.holder thread hinside)
            have hno : q.mMutex ≠ some thread := by
              rw [ne_eq, ← hdisciplined.owner, houtside]
              exact Bool.false_ne_true
            exact (if_neg hno).trans h.pushed
  | execute => exact iff_of_true ⟨h.holder, h.pushed⟩ trivial
  | executeInternal => exact iff_of_true ⟨h.holder, h.pushed⟩ trivial

/-! ## Runs -/

theorem disciplined_initial : (initial : LockedQueues ρ).Disciplined where
  ordered := fun _ => trivial
  owner := fun _ => iff_of_false Bool.false_ne_true fun heq => by cases heq

theorem tracked_initial : (initial : LockedQueues ρ).Tracked where
  holder := fun _ hinside => by cases hinside
  pushed := rfl

/-- In every run the holder is tracked exactly if nobody resets it while another thread is
inside. -/
theorem tracked_iff_resetsAlone {run : List (Action ρ × LockedQueues ρ)}
    (hrun : Runs.IsRun (Runs.StepOf step) initial run) :
    Runs.AllStates Tracked run ↔ Runs.AllSteps ResetsAlone initial run :=
  hrun.allStates_iff_allSteps (I := Disciplined)
    (fun _ _ _ h _ _ hstep => h.steps (steps_of_step hstep))
    (fun _ _ _ h htracked hstep => htracked.steps_iff h (steps_of_step hstep))
    disciplined_initial tracked_initial

instance (q : LockedQueues ρ) : (action : Action ρ) → Decidable (q.ResetsAlone action)
  | .access thread =>
    inferInstanceAs (Decidable ((q.ahead thread).head? = some .resetHolder →
      ∀ other ∈ q.mMutex, other ≠ thread → ¬ q.Inside other))
  | .enter _ _ | .request _ _ | .execute | .executeInternal => isTrue trivial

/-- The worker thread finds nothing to do, and goes to sleep. -/
def idleRound : List (Action ρ) :=
  [.enter .worker Access.workerRound, .access .worker, .access .worker, .access .worker,
    .access .worker]

/-- A thread takes the lock and makes a request. -/
def requestInside (change : ρ) : List (Action ρ) :=
  [.enter (.other 0) Access.scope, .access (.other 0), .access (.other 0),
    .request (.other 0) change]

/-- The worker thread is done before the other begins. -/
theorem tracked_inTurn :
    (Runs.runOf step (initial : LockedQueues Unit) (idleRound ++ [.access .worker, .access .worker] ++
        requestInside ())).length = 11 ∧
      Runs.AllStates Tracked (Runs.runOf step (initial : LockedQueues Unit)
        (idleRound ++ [.access .worker, .access .worker] ++ requestInside ())) :=
  ⟨by decide +kernel, (tracked_iff_resetsAlone (Runs.isRun_runOf step _ _)).mpr (by decide +kernel)⟩

/-- It resets the holder when the other has taken the lock. -/
theorem not_tracked_overlapping :
    ∃ run, Runs.IsRun (Runs.StepOf step) (initial : LockedQueues Unit) run ∧
      ¬ Runs.AllStates Tracked run := by
  refine ⟨_, Runs.isRun_runOf step _ (idleRound ++ (requestInside ()).take 3 ++ [.access .worker] ++
    (requestInside ()).drop 3), fun h => ?_⟩
  have hpushed : Runs.AllStates (fun q : LockedQueues Unit => q.pushedWithLock = []) _ :=
    fun x hx => (h x hx).pushed
  revert hpushed
  decide +kernel

end LockedQueues

end NioevMqtt
