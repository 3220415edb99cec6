-- SUMMARY: Locks that are held by one alone or shared by many: what taking and giving them up does to their holders.
import Mathlib.Data.Finset.Basic

/-!
# Shared locks

A lock that many may share, or one may have for himself. A value that says both cannot
be built, and to take the lock is an operation that may be impossible.
-/

/-- Who holds the lock. -/
structure SharedMutex (ι : Type*) where
  sharers : Finset ι := ∅
  exclusive : Bool := false
  /-- Nobody shares what another has for himself. -/
  alone : exclusive = true → sharers = ∅ := by simp

namespace SharedMutex

variable {ι : Type*} [DecidableEq ι] {m m' : SharedMutex ι} {i j : ι}

/-- Some hold it together, or nobody. -/
def shared (sharers : Finset ι) : SharedMutex ι where
  sharers := sharers
  alone := fun h => by cases h

def tryLock (m : SharedMutex ι) : Option (SharedMutex ι) :=
  if m.sharers = ∅ ∧ m.exclusive = false then some { exclusive := true } else none

def unlock (m : SharedMutex ι) : SharedMutex ι := shared m.sharers

theorem tryLock_eq_some_iff :
    m.tryLock = some m' ↔
      m.sharers = ∅ ∧ m.exclusive = false ∧ m' = { exclusive := true } := by
  unfold tryLock
  split
  · next hfree => simp [hfree, eq_comm]
  · next hheld =>
      refine iff_of_false (fun h => by cases h) fun h => hheld ⟨h.1, h.2.1⟩

def lockShared (m : SharedMutex ι) (i : ι) : Option (SharedMutex ι) :=
  if m.exclusive = true then none else some (shared (insert i m.sharers))

def unlockShared (m : SharedMutex ι) (i : ι) : SharedMutex ι where
  sharers := m.sharers.erase i
  exclusive := m.exclusive
  alone := fun h => by rw [m.alone h, Finset.erase_empty]

theorem lockShared_eq_some_iff :
    m.lockShared i = some m' ↔
      m.exclusive = false ∧ m' = shared (insert i m.sharers) := by
  unfold lockShared
  split
  · next hheld => exact iff_of_false (fun h => by cases h) fun h => by simp [hheld] at h
  · next hfree => simp [hfree, eq_comm]

theorem mem_lockShared (h : m.lockShared i = some m') :
    j ∈ m'.sharers ↔ j = i ∨ j ∈ m.sharers := by
  rw [(lockShared_eq_some_iff.mp h).2]
  exact Finset.mem_insert

theorem mem_unlockShared : j ∈ (m.unlockShared i).sharers ↔ j ≠ i ∧ j ∈ m.sharers :=
  Finset.mem_erase

end SharedMutex
