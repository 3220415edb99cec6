-- SUMMARY: Threads that take locks in the order of their ranks: they can all finish, while one that takes a lock against itself never does.
import Mathlib.Data.Finset.Max
import NioevMqtt.Library.Progress

/-!
# Lock order

Threads take locks, each for itself or to share it, and give them back, the last one first.
What is ranked are the ways to wait for a lock: whoever waits has only locks for which
others wait at a lower rank. One that wants to share a lock waits only for one who has it
for itself, not for those who wait to have it so.
-/

namespace LockOrder

open Relation

inductive Mode where
  | shared
  | exclusive
deriving DecidableEq

inductive LockOp (L : Type*) where
  | acquire (lock : L) (mode : Mode)
  /-- The lock that was taken last. -/
  | release
deriving DecidableEq

structure LockThread (L : Type*) where
  /-- The last one first. -/
  held : List (L × Mode) := []
  todo : List (LockOp L) := []
deriving DecidableEq

variable {L ι : Type*}

/-- A lock for as long as something else is done. -/
def lockGuard (lock : L) (mode : Mode) (inner : List (LockOp L)) : List (LockOp L) :=
  .acquire lock mode :: (inner ++ [.release])

/-- Nobody has the lock in a way that keeps out others who take it so. -/
def Available (threads : ι → LockThread L) (lock : L) (mode : Mode) : Prop :=
  ∀ i, ∀ h ∈ (threads i).held, h.1 = lock → mode = .shared ∧ h.2 = .shared

instance [Fintype ι] [DecidableEq L] (threads : ι → LockThread L) (lock : L) (mode : Mode) :
    Decidable (Available threads lock mode) :=
  inferInstanceAs (Decidable (∀ i, ∀ h ∈ (threads i).held, h.1 = lock → _ ∧ _))

section

variable [DecidableEq ι]

def setThread (threads : ι → LockThread L) (i : ι) (held : List (L × Mode))
    (todo : List (LockOp L)) : ι → LockThread L := Function.update threads i ⟨held, todo⟩

variable [Fintype ι] [DecidableEq L]

/-- The next of what a thread has to do. -/
def advance (threads : ι → LockThread L) (i : ι) : Option (ι → LockThread L) :=
  match (threads i).todo with
  | [] => none
  | .acquire lock mode :: todo =>
    if Available threads lock mode then
      some (setThread threads i ((lock, mode) :: (threads i).held) todo)
    else none
  | .release :: todo => some (setThread threads i (threads i).held.tail todo)

/-- A thread that has nothing to do gives back the lock it has taken last. -/
def leave (threads : ι → LockThread L) (i : ι) : Option (ι → LockThread L) :=
  match threads i with
  | ⟨_ :: held, []⟩ => some (setThread threads i held [])
  | _ => none

def Moves (threads threads' : ι → LockThread L) : Prop :=
  ∃ i, advance threads i = some threads' ∨ leave threads i = some threads'

/-- All can get to the end of what they do. -/
def CanFinish (threads : ι → LockThread L) : Prop := ReflTransGen Moves threads fun _ => {}

end

/-! ## Order -/

section

variable (rank : L → Mode → Nat)

/-- Those who are kept out by the locks that are held wait at lower ranks. -/
def Below (held : List (L × Mode)) (n : Nat) : Prop :=
  ∀ h ∈ held, rank h.1 .exclusive < n ∧ (h.2 = .exclusive → rank h.1 .shared < n)

def Ordered : List (L × Mode) → List (LockOp L) → Prop
  | _, [] => True
  | held, .acquire lock mode :: ops =>
    Below rank held (rank lock mode) ∧ Ordered ((lock, mode) :: held) ops
  | held, .release :: ops => Ordered held.tail ops

/-- What is done in order while some locks are held, and gives back what it takes. -/
def Region (held : List (L × Mode)) (ops : List (LockOp L)) : Prop :=
  ∀ rest, Ordered rank held rest → Ordered rank held (ops ++ rest)

end

section

variable {rank : L → Mode → Nat} {held : List (L × Mode)} {ops ops' : List (LockOp L)} {lock : L}
  {mode : Mode} {m n : Nat}

theorem below_nil (n : Nat) : Below rank [] n := fun _ h => by cases h

theorem Below.cons (h : Below rank held n) (hexclusive : rank lock .exclusive < n)
    (hshared : mode = .exclusive → rank lock .shared < n) : Below rank ((lock, mode) :: held) n :=
  List.forall_mem_cons.mpr ⟨⟨hexclusive, hshared⟩, h⟩

theorem Below.mono (h : Below rank held m) (hle : m ≤ n) : Below rank held n := fun own hown =>
  ⟨(h own hown).1.trans_le hle, fun hmode => ((h own hown).2 hmode).trans_le hle⟩

theorem Region.nil : Region rank held [] := fun _ h => h

theorem Region.append (h : Region rank held ops) (h' : Region rank held ops') :
    Region rank held (ops ++ ops') := by
  intro rest hrest
  rw [List.append_assoc]
  exact h _ (h' rest hrest)

theorem Region.flatMap {α : Type*} {f : α → List (LockOp L)} {l : List α}
    (h : ∀ a ∈ l, Region rank held (f a)) : Region rank held (l.flatMap f) := by
  induction l with
  | nil => exact .nil
  | cons a l ih =>
      rw [List.flatMap_cons]
      exact (h a List.mem_cons_self).append (ih fun b hb => h b (List.mem_cons_of_mem a hb))

theorem Region.lockGuard (hbelow : Below rank held (rank lock mode))
    (h : Region rank ((lock, mode) :: held) ops) :
    Region rank held (lockGuard lock mode ops) := by
  intro rest hrest
  refine ⟨hbelow, ?_⟩
  show Ordered rank ((lock, mode) :: held) ((ops ++ [.release]) ++ rest)
  rw [List.append_assoc]
  exact h _ hrest

theorem Region.ordered (h : Region rank held ops) : Ordered rank held ops := by
  have hend := h [] trivial
  rwa [List.append_nil] at hend

end

/-! ## Progress -/

section

variable [Fintype ι] [DecidableEq ι] [DecidableEq L] {threads threads' : ι → LockThread L} {i j : ι}

/-- What a thread does next. -/
inductive Moved (threads : ι → LockThread L) (i : ι) :
    List (L × Mode) → List (LockOp L) → Prop where
  | acquire {lock mode todo} (htodo : (threads i).todo = .acquire lock mode :: todo)
      (havailable : Available threads lock mode) :
      Moved threads i ((lock, mode) :: (threads i).held) todo
  | release {todo} (htodo : (threads i).todo = .release :: todo) :
      Moved threads i (threads i).held.tail todo
  | leave {h held} (hheld : (threads i).held = h :: held) (htodo : (threads i).todo = []) :
      Moved threads i held []

theorem moves_iff : Moves threads threads' ↔
    ∃ i held todo, Moved threads i held todo ∧ threads' = setThread threads i held todo := by
  constructor
  · rintro ⟨i, hadvance | hleave⟩
    · unfold advance at hadvance
      split at hadvance
      · cases hadvance
      · next lock mode todo htodo =>
          obtain ⟨havailable, heq⟩ := Option.ite_none_right_eq_some.mp hadvance
          exact ⟨i, _, _, .acquire htodo havailable, (Option.some_inj.mp heq).symm⟩
      · next todo htodo =>
          exact ⟨i, _, _, .release htodo, (Option.some_inj.mp hadvance).symm⟩
    · unfold leave at hleave
      split at hleave
      · next h held hthread =>
          refine ⟨i, held, [], .leave (h := h) ?_ ?_, (Option.some_inj.mp hleave).symm⟩
          · rw [hthread]
          · rw [hthread]
      · cases hleave
  · rintro ⟨i, held, todo, hmoved, rfl⟩
    refine ⟨i, ?_⟩
    cases hmoved with
    | acquire htodo havailable =>
        left
        unfold advance
        simp only [htodo, if_pos havailable]
    | release htodo =>
        left
        unfold advance
        simp only [htodo]
    | leave hheld htodo =>
        right
        unfold leave
        split
        · next h' held' hthread =>
            rw [hthread] at hheld
            cases hheld
            rfl
        · next hother =>
            exact absurd (by rw [← hheld, ← htodo]) (hother _ held)

/-! ## Threads in order finish -/

variable {rank : L → Mode → Nat} {held : List (L × Mode)} {todo : List (LockOp L)}

def AllOrdered (rank : L → Mode → Nat) (threads : ι → LockThread L) : Prop :=
  ∀ i, Ordered rank (threads i).held (threads i).todo

omit [Fintype ι] [DecidableEq L] in
theorem AllOrdered.setThread (h : AllOrdered rank threads) (hone : Ordered rank held todo) (i : ι) :
    AllOrdered rank (setThread threads i held todo) := by
  intro j
  unfold LockOrder.setThread
  by_cases hj : j = i
  · rw [hj, Function.update_self]
    exact hone
  · rw [Function.update_of_ne hj]
    exact h j

omit [Fintype ι] [DecidableEq ι] [DecidableEq L] in
theorem Moved.ordered (hmoved : Moved threads i held todo)
    (h : Ordered rank (threads i).held (threads i).todo) : Ordered rank held todo := by
  cases hmoved with
  | acquire htodo _ =>
      rw [htodo] at h
      exact h.2
  | release htodo =>
      rw [htodo] at h
      exact h
  | leave _ _ => trivial

/-- The rank at which a thread waits. -/
def wanted (rank : L → Mode → Nat) (thread : LockThread L) : Nat :=
  match thread.todo with
  | .acquire lock mode :: _ => rank lock mode
  | _ => 0

omit [DecidableEq ι] [DecidableEq L] in
/-- Whoever waits at the highest rank waits for nobody. -/
theorem AllOrdered.exists_moved (h : AllOrdered rank threads) (hbusy : threads i ≠ {}) :
    ∃ j held todo, Moved threads j held todo := by
  classical
  by_contra hstuck
  have hnobody : ∀ j held todo, ¬ Moved threads j held todo := fun j held todo hmoved =>
    hstuck ⟨j, held, todo, hmoved⟩
  have hwaits : ∀ j, threads j ≠ {} →
      ∃ lock mode todo, (threads j).todo = .acquire lock mode :: todo := by
    intro j hj
    cases htodo : (threads j).todo with
    | nil =>
        cases hheld : (threads j).held with
        | nil => exact absurd (by rw [← hheld, ← htodo]) hj
        | cons h held => exact absurd (.leave hheld htodo) (hnobody j _ _)
    | cons op todo =>
        cases op with
        | acquire lock mode => exact ⟨lock, mode, todo, rfl⟩
        | release => exact absurd (.release htodo) (hnobody j _ _)
  obtain ⟨k, hk, hmax⟩ := Finset.exists_max_image
    (Finset.univ.filter fun j => threads j ≠ {}) (fun j => wanted rank (threads j))
    ⟨i, Finset.mem_filter.mpr ⟨Finset.mem_univ i, hbusy⟩⟩
  obtain ⟨lock, mode, todo, htodo⟩ := hwaits k (Finset.mem_filter.mp hk).2
  have hkept : ¬ Available threads lock mode := fun havailable =>
    hnobody k _ _ (.acquire htodo havailable)
  unfold Available at hkept
  push Not at hkept
  obtain ⟨j, held, hheld, rfl, hkeeps⟩ := hkept
  have hj : threads j ≠ {} := by
    intro hidle
    rw [hidle] at hheld
    cases hheld
  -- The one who has the lock waits at a higher rank.
  obtain ⟨lock', mode', todo', htodo'⟩ := hwaits j hj
  have hle : wanted rank (threads j) ≤ wanted rank (threads k) :=
    hmax j (Finset.mem_filter.mpr ⟨Finset.mem_univ j, hj⟩)
  rw [wanted, wanted, htodo, htodo'] at hle
  have hordered := h j
  rw [htodo'] at hordered
  obtain ⟨hexclusive, hshared⟩ := hordered.1 held hheld
  cases mode with
  | exclusive => exact absurd hexclusive (not_lt.mpr hle)
  | shared =>
      cases hmode : held.2 with
      | shared => exact hkeeps rfl hmode
      | exclusive => exact absurd (hshared hmode) (not_lt.mpr hle)

def LockThread.weight (thread : LockThread L) : Nat := 2 * thread.todo.length + thread.held.length

omit [Fintype ι] [DecidableEq ι] [DecidableEq L] in
theorem Moved.weight_lt (hmoved : Moved threads i held todo) :
    (⟨held, todo⟩ : LockThread L).weight < (threads i).weight := by
  unfold LockThread.weight
  cases hmoved with
  | acquire htodo _ =>
      simp only [htodo, List.length_cons]
      omega
  | release htodo =>
      simp only [htodo, List.length_cons, List.length_tail]
      omega
  | leave hheld htodo =>
      simp only [hheld, htodo, List.length_cons, List.length_nil]
      omega

/-- Threads that take their locks in order can all finish. -/
theorem AllOrdered.canFinish (h : AllOrdered rank threads) : CanFinish threads := by
  have hnearer : ∀ threads : ι → LockThread L, AllOrdered rank threads → threads ≠ (fun _ => {}) →
      ∃ threads', ReflTransGen Moves threads threads' ∧ AllOrdered rank threads' ∧
        ∑ i, (threads' i).weight < ∑ i, (threads i).weight := by
    intro threads h hbusy
    obtain ⟨i, hi⟩ := Function.ne_iff.mp hbusy
    obtain ⟨j, held, todo, hmoved⟩ := h.exists_moved hi
    refine ⟨LockOrder.setThread threads j held todo, .single (moves_iff.mpr ⟨j, held, todo, hmoved, rfl⟩),
      h.setThread (hmoved.ordered (h j)) j, ?_⟩
    have hsum := Progress.sum_update LockThread.weight threads j ⟨held, todo⟩
    have hlt := hmoved.weight_lt
    show ∑ k, (Function.update threads j ⟨held, todo⟩ k).weight < _
    omega
  obtain ⟨threads', hmoves, -, rfl⟩ := Progress.exists_goal _ hnearer h
  exact hmoves

/-! ## Threads against themselves do not -/

/-- Somewhere it will take a lock that it has in a way that keeps itself out. -/
def Doomed : List (L × Mode) → List (LockOp L) → Prop
  | _, [] => False
  | held, .acquire lock mode :: ops =>
    (∃ h ∈ held, h.1 = lock ∧ ¬ (mode = .shared ∧ h.2 = .shared)) ∨
      Doomed ((lock, mode) :: held) ops
  | held, .release :: ops => Doomed held.tail ops

omit [Fintype ι] [DecidableEq ι] [DecidableEq L] in
theorem Moved.doomed (hmoved : Moved threads i held todo)
    (h : Doomed (threads i).held (threads i).todo) : Doomed held todo := by
  cases hmoved with
  | acquire htodo havailable =>
      rw [htodo] at h
      rcases h with ⟨own, hheld, hlock, hkeeps⟩ | hlater
      · exact absurd (havailable i own hheld hlock) hkeeps
      · exact hlater
  | release htodo =>
      rw [htodo] at h
      exact h
  | leave _ htodo =>
      rw [htodo] at h
      exact h.elim

omit [Fintype ι] [DecidableEq ι] [DecidableEq L] in
theorem Doomed.append {ops : List (LockOp L)} (h : Doomed held ops) (rest : List (LockOp L)) :
    Doomed held (ops ++ rest) := by
  induction ops generalizing held with
  | nil => exact h.elim
  | cons op ops ih =>
      cases op with
      | acquire lock mode => exact h.imp_right ih
      | release => exact ih h

/-- A thread that takes a lock against itself never gets to the end. -/
theorem not_canFinish (h : Doomed (threads i).held (threads i).todo) : ¬ CanFinish threads := by
  intro hfinish
  induction hfinish using ReflTransGen.head_induction_on with
  | refl => exact h
  | head hmove _ ih =>
      obtain ⟨j, held, todo, hmoved, rfl⟩ := moves_iff.mp hmove
      refine ih ?_
      unfold setThread
      by_cases hj : i = j
      · subst hj
        rw [Function.update_self]
        exact hmoved.doomed h
      · rw [Function.update_of_ne hj]
        exact h

end

end LockOrder
