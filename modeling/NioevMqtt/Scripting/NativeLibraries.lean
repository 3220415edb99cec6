-- SUMMARY: Native libraries: over every run the names in `mCurrentlyLoading` are those of the tasks that have not finished, exactly as long as no task finishes while another of its library has not.
import Mathlib.Data.Finset.Insert
import Mathlib.Data.Finset.Erase
import Mathlib.Data.List.Perm.Basic
import NioevMqtt.Libnioev
import NioevMqtt.Library.Runs

/-!
# Compiling native libraries

A script in C++ is handed to a thread that compiles one library after another. The names of
the libraries to be compiled are kept in a set, and a script that loads one of them waits. The
set does not say how many tasks of a library there are.
-/

namespace NioevMqtt

open Runs

/-- What libnioev makes of the name of a file. -/
class FileStems where
  getFileStem : ByteString → ByteString

/-- `CompileNativeLibraryData`. -/
structure CompileTask where
  codeFilename : ByteString
  code : ByteString
deriving DecidableEq

/-- The library of a task. -/
def CompileTask.library [FileStems] (task : CompileTask) : ByteString :=
  FileStems.getFileStem task.codeFilename

/-- How `handleTask` ends. -/
inductive CompileExit where
  | mkdtempFailed
  | mkdirFailed
  | forkFailed
  | waitpidFailed
  | compilationFailed
  | success

structure NativeLibraries where
  mCurrentlyLoading : Finset ByteString := ∅
  /-- The tasks of threads in `enqueue` that are in the set and not yet in the queue. -/
  enqueuing : List CompileTask := []
  /-- The queue of the `GenServer`. -/
  queue : List CompileTask := []
  /-- The task `handleTask` is at. -/
  handled : Option CompileTask := none
  /-- What `loadNativeLibrary` did not wait for, and the tasks that had not finished then. -/
  letThrough : List (ByteString × List CompileTask) := []

namespace NativeLibraries

/-- The tasks that were enqueued and have not finished. -/
def unfinished (s : NativeLibraries) : List CompileTask :=
  s.enqueuing ++ s.queue ++ s.handled.toList

inductive Event where
  /-- `enqueue` puts the name of the library into the set, under the lock. -/
  | emplace (task : CompileTask)
  /-- `GenServer::enqueue` of one of the threads. -/
  | enqueue (thread : Nat)
  | handleTask
  /-- However `handleTask` ends, the name is erased. -/
  | finish (exit : CompileExit)
  /-- A script looks at the set, in the loop of `loadNativeLibrary`. -/
  | loadNativeLibrary (libName : ByteString)

variable [FileStems]

def step (s : NativeLibraries) : Event → Option NativeLibraries
  | .emplace task => some { s with
      mCurrentlyLoading := insert task.library s.mCurrentlyLoading
      enqueuing := s.enqueuing ++ [task] }
  | .enqueue thread =>
    match s.enqueuing[thread]? with
    | none => none
    | some task => some { s with
        enqueuing := s.enqueuing.eraseIdx thread
        queue := s.queue ++ [task] }
  | .handleTask =>
    match s.handled, s.queue with
    | none, task :: queue => some { s with queue, handled := some task }
    | _, _ => none
  | .finish _ =>
    match s.handled with
    | none => none
    | some task => some { s with
        mCurrentlyLoading := s.mCurrentlyLoading.erase task.library
        handled := none }
  | .loadNativeLibrary libName =>
    if libName ∈ s.mCurrentlyLoading then some s
    else some { s with letThrough := s.letThrough ++ [(libName, s.unfinished)] }

def initial : NativeLibraries := {}

/-! ## The property -/

/-- The names in the set are those of the libraries that have an unfinished task, and no script
was let through to a library that had one. -/
structure Right (s : NativeLibraries) : Prop where
  loading : ∀ name, name ∈ s.mCurrentlyLoading ↔ ∃ task ∈ s.unfinished, task.library = name
  letThrough : ∀ passed ∈ s.letThrough, ∀ task ∈ passed.2, task.library ≠ passed.1

/-- A task that finishes is the last of its library. -/
def FinishesLast (s : NativeLibraries) : Event → Prop
  | .finish _ => ∀ task ∈ s.handled, ∀ other ∈ s.enqueuing ++ s.queue,
    other.library ≠ task.library
  | _ => True

/-! ## Steps -/

variable {s t : NativeLibraries} {event : Event}

theorem right_initial : Right initial where
  loading := by simp [initial, unfinished]
  letThrough := by simp [initial]

/-- A step that moves a task changes nothing of the property. -/
theorem Right.congr (h : Right s) (hloading : t.mCurrentlyLoading = s.mCurrentlyLoading)
    (hperm : t.unfinished.Perm s.unfinished) (hlet : t.letThrough = s.letThrough) : Right t where
  loading := by
    intro name
    rw [hloading, h.loading]
    simp only [hperm.mem_iff]
  letThrough := hlet ▸ h.letThrough

/-- An erased name is missed exactly if the library has another task. -/
theorem right_finish_iff (h : Right s) {task : CompileTask} (hhandled : s.handled = some task) :
    Right { s with
      mCurrentlyLoading := s.mCurrentlyLoading.erase task.library
      handled := none } ↔
      ∀ other ∈ s.enqueuing ++ s.queue, other.library ≠ task.library := by
  have hunfinished (other : CompileTask) :
      other ∈ s.unfinished ↔ other ∈ s.enqueuing ++ s.queue ∨ other = task := by
    rw [unfinished, List.mem_append, hhandled, Option.toList_some, List.mem_singleton]
  constructor
  · intro hright other hother heq
    have hmem := (hright.loading task.library).mpr ⟨other, by simpa [unfinished] using hother, heq⟩
    exact Finset.notMem_erase _ _ hmem
  · intro hlast
    refine ⟨fun name => ?_, h.letThrough⟩
    rw [Finset.mem_erase, h.loading]
    constructor
    · rintro ⟨hne, other, hother, rfl⟩
      rcases (hunfinished other).mp hother with hwaiting | rfl
      · exact ⟨other, by simpa [unfinished] using hwaiting, rfl⟩
      · exact absurd rfl hne
    · rintro ⟨other, hother, rfl⟩
      have hwaiting : other ∈ s.enqueuing ++ s.queue := by simpa [unfinished] using hother
      exact ⟨hlast other hwaiting, other, (hunfinished other).mpr (.inl hwaiting), rfl⟩

/-- A step keeps the set right exactly if the task that finishes, if one does, is the last of its
library. -/
theorem right_step_iff (h : Right s) (hstep : s.step event = some t) :
    Right t ↔ FinishesLast s event := by
  cases event with
  | emplace task =>
      obtain rfl := Option.some.inj hstep
      refine iff_of_true ⟨fun name => ?_, h.letThrough⟩ trivial
      rw [Finset.mem_insert, h.loading]
      simp only [unfinished, List.mem_append, List.mem_singleton]
      constructor
      · rintro (rfl | ⟨other, hother, rfl⟩)
        · exact ⟨task, .inl (.inl (.inr rfl)), rfl⟩
        · exact ⟨other, hother.imp_left (.imp_left .inl), rfl⟩
      · rintro ⟨other, ((hold | rfl) | hqueue) | hhandled, rfl⟩
        · exact .inr ⟨other, .inl (.inl hold), rfl⟩
        · exact .inl rfl
        · exact .inr ⟨other, .inl (.inr hqueue), rfl⟩
        · exact .inr ⟨other, .inr hhandled, rfl⟩
  | enqueue thread =>
      rw [step] at hstep
      split at hstep
      · cases hstep
      · next task htask =>
          obtain rfl := Option.some.inj hstep
          obtain ⟨hlt, rfl⟩ := List.getElem?_eq_some_iff.mp htask
          refine iff_of_true (h.congr rfl ?_ rfl) trivial
          have hmoved : (s.enqueuing.eraseIdx thread ++ (s.queue ++ [s.enqueuing[thread]])).Perm
              (s.enqueuing ++ s.queue) := by
            rw [← List.append_assoc]
            exact (List.perm_append_singleton _ _).trans
              ((List.getElem_cons_eraseIdx_perm hlt).append_right s.queue)
          exact hmoved.append_right _
  | handleTask =>
      rw [step] at hstep
      split at hstep
      · next task queue hhandled hqueue =>
          obtain rfl := Option.some.inj hstep
          refine iff_of_true (h.congr rfl ?_ rfl) trivial
          rw [unfinished, unfinished, hhandled, hqueue, Option.toList_none, List.append_nil,
            Option.toList_some, List.append_assoc]
          exact (List.perm_append_singleton task queue).append_left _
      · cases hstep
  | finish exit =>
      rw [step] at hstep
      split at hstep
      · cases hstep
      · next task hhandled =>
          obtain rfl := Option.some.inj hstep
          rw [right_finish_iff h hhandled, FinishesLast, hhandled]
          simp
  | loadNativeLibrary libName =>
      rw [step] at hstep
      split at hstep
      · obtain rfl := Option.some.inj hstep
        exact iff_of_true h trivial
      · next hnot =>
          obtain rfl := Option.some.inj hstep
          refine iff_of_true ⟨h.loading, ?_⟩ trivial
          rw [List.forall_mem_append, List.forall_mem_singleton]
          refine ⟨h.letThrough, fun task htask heq => hnot ?_⟩
          exact (h.loading libName).mpr ⟨task, htask, heq⟩

/-- Over every run the set is right exactly as long as each task that finishes is the last of its
library. -/
theorem right_iff_finishesLast {run : List (Event × NativeLibraries)}
    (hrun : IsRun (StepOf step) initial run) :
    AllStates Right run ↔ AllSteps FinishesLast initial run :=
  hrun.allStates_iff_allSteps (I := fun _ => True) (fun _ _ _ _ _ _ _ => trivial)
    (fun _ _ _ _ hright hstep => right_step_iff hright hstep) trivial right_initial

end NativeLibraries

/-- A stem ends before the last dot. -/
@[reducible] def FileStems.standard : FileStems where
  getFileStem name := (name.reverse.dropWhile (· ≠ 0x2E)).tail.reverse

/-- `a.cpp` is uploaded, and again while it is compiled. -/
def NativeLibraries.uploadedTwice : List NativeLibraries.Event :=
  [.emplace ⟨[0x61, 0x2E, 0x63, 0x70, 0x70], []⟩, .enqueue 0, .handleTask,
    .emplace ⟨[0x61, 0x2E, 0x63, 0x70, 0x70], [0x20]⟩, .enqueue 0, .finish .success,
    .loadNativeLibrary [0x61]]

theorem NativeLibraries.right_iff_finishesLast_uploadedTwice :
    AllStates (@Right FileStems.standard)
        (runOf (@step FileStems.standard) initial uploadedTwice) ↔
      AllSteps (@FinishesLast FileStems.standard) initial
        (runOf (@step FileStems.standard) initial uploadedTwice) :=
  @right_iff_finishesLast FileStems.standard _ (isRun_runOf _ _ _)

/-- When the first task finishes, a script is let through to a library that is to be compiled again. -/
theorem NativeLibraries.not_right : ¬ ∀ (stems : FileStems)
    (run : List (NativeLibraries.Event × NativeLibraries)),
    IsRun (StepOf (@step stems)) initial run → AllStates (@Right stems) run := by
  intro hall
  have hstates := hall FileStems.standard (runOf (@step FileStems.standard) initial uploadedTwice)
    (isRun_runOf _ _ _)
  have hlet : AllStates (fun s : NativeLibraries => ∀ passed ∈ s.letThrough, ∀ task ∈ passed.2,
      FileStems.standard.getFileStem task.codeFilename ≠ passed.1)
      (runOf (@step FileStems.standard) initial uploadedTwice) :=
    fun x hx => (@Right.letThrough FileStems.standard _ (hstates x hx))
  revert hlet
  decide +kernel

end NioevMqtt
