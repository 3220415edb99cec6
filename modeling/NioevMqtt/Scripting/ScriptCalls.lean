-- SUMMARY: Calls between scripts and requests about scripts, which wait for the lock, for threads and for answers: over every run nobody waits for himself, exactly as long as no step closes a chain of calls.
import NioevMqtt.Library.WaitFor
import NioevMqtt.Scripting.ScriptThread

/-!
# Calls between scripts

`nv.callScript` and the requests about scripts, with everything a thread waits for on the
way: `mMutex`, the end of a thread in `forceQuit`, and the answer to a call. The scripts are
those of `Scripting/ScriptThread.lean`.
-/

namespace NioevMqtt

/-- A thread of the application, or that of a script. -/
inductive Waiter where
  | application (thread : Thread)
  | script (id : Nat)
deriving DecidableEq, Repr

/-- What a thread of the application waits for. -/
inductive ThreadPhase where
  | running
  /-- For `mMutex`, which it wants for itself or with others. -/
  | locking (shared : Bool)
  /-- In `forceQuit`, on account of a request. -/
  | joining (change : ScriptRequest) (fromStartup : Bool) (script : Nat)
deriving DecidableEq, Repr

/-- Where the thread of a script is in `nv.callScript`. -/
inductive CallPhase where
  /-- Not in a call. -/
  | running
  | locking (name payload : ByteString)
  /-- In `runScript`, with the lock. -/
  | reading (name payload : ByteString)
  | sleeping (name payload : ByteString)
  | awaiting (callee task : Nat)
deriving DecidableEq, Repr

def CallPhase.isLocking : CallPhase → Bool
  | .locking _ _ => true
  | _ => false

/-- The thread waits for nobody. -/
def CallPhase.isIdle : CallPhase → Bool
  | .running | .reading _ _ | .sleeping _ _ => true
  | .locking _ _ | .awaiting _ _ => false

/-- Code of a script is being executed. -/
def ScriptPhase.runsCode : ScriptPhase → Bool
  | .initialising | .inTimeout | .performing _ => true
  | _ => false

structure ScriptCalls where
  mScripts : AList (fun _ : ByteString => Nat) := ∅
  nextScript : Nat := 0
  containers : Nat → ScriptContainerJS := fun _ => .initial
  /-- Who has `mMutex`. -/
  writer : Option Thread := none
  readers : List Waiter := []
  threads : Thread → ThreadPhase := fun _ => .running
  calls : Nat → CallPhase := fun _ => .running
  mAmountOfScriptsLoadedFromDBOnStartup : Nat := 0
  mScriptsAlreadyAddedFromStartup : Nat := 0

namespace ScriptCalls

def setThread (s : ScriptCalls) (thread : Thread) (phase : ThreadPhase) : ScriptCalls :=
  { s with threads := Function.update s.threads thread phase }

theorem threads_setThread_self (s : ScriptCalls) (thread : Thread) (phase : ThreadPhase) :
    (s.setThread thread phase).threads thread = phase := Function.update_self _ _ _

def setCall (s : ScriptCalls) (script : Nat) (phase : CallPhase) : ScriptCalls :=
  { s with calls := Function.update s.calls script phase }

def setContainer (s : ScriptCalls) (script : Nat) (container : ScriptContainerJS) : ScriptCalls :=
  { s with containers := Function.update s.containers script container }

/-- The thread has `mMutex`, for itself or with others. -/
def Has (s : ScriptCalls) (thread : Thread) : Prop :=
  s.writer = some thread ∨ .application thread ∈ s.readers

instance (s : ScriptCalls) (thread : Thread) : Decidable (s.Has thread) :=
  inferInstanceAs (Decidable (_ ∨ _))

/-! ## Requests about scripts -/

/-- The script that a request deletes. -/
def deletes (s : ScriptCalls) : ScriptRequest → Option Nat
  | .addScript name _ | .deleteScript name => s.mScripts.lookup name
  | _ => none

section

variable [ScriptNames]

/-- `operator()(ChangeRequestAddScript)`, once the thread of an existing script has ended. -/
def addScript (s : ScriptCalls) (name : ByteString) (fromStartup : Bool) : ScriptCalls :=
  let s := { s with
    mScripts := s.mScripts.erase name
    mScriptsAlreadyAddedFromStartup :=
      if fromStartup then s.mScriptsAlreadyAddedFromStartup + 1 else s.mScriptsAlreadyAddedFromStartup }
  if ScriptNames.getFileExtension name = dotJs then
    { s with mScripts := s.mScripts.insert name s.nextScript, nextScript := s.nextScript + 1 }
  else s

/-- What a request does, once the thread of the script it deletes has ended. -/
def visit (s : ScriptCalls) (fromStartup : Bool) : ScriptRequest → ScriptCalls
  | .addScript name _ => s.addScript name fromStartup
  | .deleteScript name => { s with mScripts := s.mScripts.erase name }
  | .activateScript name =>
    match s.mScripts.lookup name with
    | none => s
    | some script => s.setContainer script (s.containers script).activate
  | .deactivateScript name =>
    match s.mScripts.lookup name with
    | none => s
    | some script => s.setContainer script (s.containers script).deactivate

/-! ## Calls -/

omit [ScriptNames] in
def unlockShared (s : ScriptCalls) (reader : Waiter) : ScriptCalls :=
  { s with readers := s.readers.erase reader }

omit [ScriptNames] in
/-- The task is in the queue, or the call has been answered with an error. -/
def handOver (s : ScriptCalls) (script callee : Nat) (input : ScriptInput) : ScriptCalls :=
  (s.setContainer callee ((s.containers callee).run input)).setCall script
    (.awaiting callee (s.containers callee).nextTask)

omit [ScriptNames] in
/-- `runScript`, up to where the lock is given up. -/
def runScript (s : ScriptCalls) (script : Nat) (name payload : ByteString) : ScriptCalls :=
  match s.mScripts.lookup name with
  | none =>
    if s.mAmountOfScriptsLoadedFromDBOnStartup ≤ s.mScriptsAlreadyAddedFromStartup then
      s.setCall script .running
    else s.setCall script (.sleeping name payload)
  | some callee =>
    if (s.containers callee).mState = .running then
      s.handOver script callee (.call payload)
    else s.setCall script .running

/-! ## Steps -/

inductive Action where
  | lock (thread : Thread) (shared : Bool)
  /-- The thread gets the lock it waits for. -/
  | locked (thread : Thread)
  | unlock (thread : Thread)
  | execute (thread : Thread) (change : ScriptRequest) (fromStartup : Bool)
  | joined (thread : Thread)
  /-- A message is given to a script. -/
  | publish (thread : Thread) (script : Nat) (topic : ByteString) (payload : List UInt8)
    (retained : Retained)
  /-- The thread of a script does something else than calling one. -/
  | thread (script : Nat) (action : ScriptContainerJS.Action)
  | callScript (script : Nat) (name payload : ByteString)
  /-- The thread of a script gets the lock it waits for. -/
  | callLocked (script : Nat)
  | runScript (script : Nat)
  | wakesUp (script : Nat)
  | returns (script : Nat)

def step (s : ScriptCalls) : Action → Option ScriptCalls
  | .lock thread shared =>
    if s.threads thread = .running ∧ ¬ s.Has thread then some (s.setThread thread (.locking shared))
    else none
  | .locked thread =>
    match s.threads thread with
    | .locking false =>
      if s.writer = none ∧ s.readers = [] then
        some { s.setThread thread .running with writer := some thread }
      else none
    | .locking true =>
      if s.writer = none then
        some { s.setThread thread .running with readers := .application thread :: s.readers }
      else none
    | _ => none
  | .unlock thread =>
    if s.threads thread = .running then
      if s.writer = some thread then some { s with writer := none }
      else if .application thread ∈ s.readers then
        some (s.unlockShared (.application thread))
      else none
    else none
  | .execute thread change fromStartup =>
    if s.writer = some thread ∧ s.threads thread = .running then
      match s.deletes change with
      | none => some (s.visit fromStartup change)
      | some script =>
        some ((s.setContainer script (s.containers script).forceQuit).setThread thread
          (.joining change fromStartup script))
    else none
  | .joined thread =>
    match s.threads thread with
    | .joining change fromStartup script =>
      if (s.containers script).phase = .ended then
        some ((s.visit fromStartup change).setThread thread .running)
      else none
    | _ => none
  | .publish thread script topic payload retained =>
    if s.threads thread = .running ∧ s.Has thread ∧ script < s.nextScript ∧
        (s.containers script).mState = .running then
      some (s.setContainer script ((s.containers script).run (.publish topic payload retained)))
    else none
  | .thread script action =>
    if script < s.nextScript ∧ s.calls script = .running ∧ action.ofThread then
      ((s.containers script).step action).map (s.setContainer script)
    else none
  | .callScript script name payload =>
    if script < s.nextScript ∧ s.calls script = .running ∧ (s.containers script).phase.runsCode then
      some (s.setCall script (.locking name payload))
    else none
  | .callLocked script =>
    match s.calls script with
    | .locking name payload =>
      if s.writer = none then
        some { s.setCall script (.reading name payload) with readers := .script script :: s.readers }
      else none
    | _ => none
  | .runScript script =>
    match s.calls script with
    | .reading name payload =>
      some ((s.unlockShared (.script script)).runScript script name payload)
    | _ => none
  | .wakesUp script =>
    match s.calls script with
    | .sleeping name payload => some (s.setCall script (.locking name payload))
    | _ => none
  | .returns script =>
    match s.calls script with
    | .awaiting callee task =>
      if (s.containers callee).answers task = 0 then none else some (s.setCall script .running)
    | _ => none

omit [ScriptNames] in
def initial (scripts : Nat) : ScriptCalls := { mAmountOfScriptsLoadedFromDBOnStartup := scripts }

end

/-! ## Who waits for whom -/

/-- A script waits for the answer of another. -/
def Awaits (s : ScriptCalls) (script callee : Nat) : Prop :=
  ∃ task, s.calls script = .awaiting callee task ∧ (s.containers callee).answers task = 0

/-- Whoever waits for the lock with others, waits for its writer. -/
def Writes (s : ScriptCalls) (holder : Waiter) : Prop :=
  ∃ thread, s.writer = some thread ∧ holder = .application thread

inductive WaitsFor (s : ScriptCalls) : Waiter → Waiter → Prop
  | locking {thread shared holder} (hphase : s.threads thread = .locking shared)
      (hholds : s.Writes holder ∨ shared = false ∧ holder ∈ s.readers) :
      WaitsFor s (.application thread) holder
  | joining {thread change fromStartup script}
      (hphase : s.threads thread = .joining change fromStartup script) :
      WaitsFor s (.application thread) (.script script)
  | callLocking {script name payload holder} (hphase : s.calls script = .locking name payload)
      (hwrites : s.Writes holder) : WaitsFor s (.script script) holder
  | awaiting {script callee} (hawaits : s.Awaits script callee) :
      WaitsFor s (.script script) (.script callee)

/-- Nobody waits for himself, and nobody who has the lock waits for the end of a thread that
waits for the lock. -/
structure DeadlockFree (s : ScriptCalls) : Prop where
  acyclic : WaitFor.Acyclic s.WaitsFor
  joins : ∀ thread change fromStartup script, s.threads thread = .joining change fromStartup script →
    (s.calls script).isLocking = false

/-- The second is called by the first, or by one called by the first, and so on. -/
def CallsUpTo (s : ScriptCalls) : Nat → Nat → Prop := Relation.ReflTransGen s.Awaits

/-- The script that a thread with the lock waits for. -/
def joined? (s : ScriptCalls) : Option Nat :=
  match s.writer.map s.threads with
  | some (.joining _ _ script) => some script
  | _ => none

/-- The script whose answer a script in `runScript` is going to wait for. -/
def callee? (s : ScriptCalls) (script : Nat) : Option Nat :=
  match s.calls script with
  | .reading name _ =>
    (s.mScripts.lookup name).filter fun callee =>
      (s.containers callee).mState = .running ∧ (s.containers callee).mInitFailureMessage = []
  | _ => none

/-- No chain of calls is closed: a script calls none that calls up to it, none calls
another that the writer waits for through calls up to it, and the writer does not begin to
wait for one that calls up to a script that waits for the lock. -/
def KeepsOpen (s : ScriptCalls) : Action → Prop
  | .callScript script _ _ | .wakesUp script =>
    ∀ joined, s.joined? = some joined → ¬ s.CallsUpTo joined script
  | .runScript script => ∀ callee, s.callee? script = some callee → ¬ s.CallsUpTo callee script
  | .execute _ change _ =>
    ∀ script, s.deletes change = some script → ∀ last, s.CallsUpTo script last →
      (s.calls last).isLocking = false
  | _ => True

/-! ## What a step does -/

variable {s t : ScriptCalls} {action : Action}

section

variable [ScriptNames]

inductive Steps (s : ScriptCalls) : Action → ScriptCalls → Prop
  | lock {thread shared} (hrunning : s.threads thread = .running) (hhas : ¬ s.Has thread) :
      Steps s (.lock thread shared) (s.setThread thread (.locking shared))
  | locked {thread} (hphase : s.threads thread = .locking false) (hwriter : s.writer = none)
      (hreaders : s.readers = []) :
      Steps s (.locked thread) { s.setThread thread .running with writer := some thread }
  | lockedShared {thread} (hphase : s.threads thread = .locking true) (hwriter : s.writer = none) :
      Steps s (.locked thread)
        { s.setThread thread .running with readers := .application thread :: s.readers }
  | unlock {thread} (hwriter : s.writer = some thread) (hrunning : s.threads thread = .running) :
      Steps s (.unlock thread) { s with writer := none }
  | unlockShared {thread} (hreader : .application thread ∈ s.readers) :
      Steps s (.unlock thread) (s.unlockShared (.application thread))
  | visits {thread change fromStartup} (hdeletes : s.deletes change = none) :
      Steps s (.execute thread change fromStartup) (s.visit fromStartup change)
  | joins {thread change fromStartup script} (hwriter : s.writer = some thread)
      (hrunning : s.threads thread = .running) (hdeletes : s.deletes change = some script) :
      Steps s (.execute thread change fromStartup)
        ((s.setContainer script (s.containers script).forceQuit).setThread thread
          (.joining change fromStartup script))
  | joined {thread change fromStartup script}
      (hphase : s.threads thread = .joining change fromStartup script) :
      Steps s (.joined thread) ((s.visit fromStartup change).setThread thread .running)
  | container {action script container} (containerAction : ScriptContainerJS.Action)
      (hopen : s.KeepsOpen action)
      (hstep : (s.containers script).step containerAction = some container) :
      Steps s action (s.setContainer script container)
  | calls {script name payload} (hcall : s.calls script = .running) :
      Steps s (.callScript script name payload) (s.setCall script (.locking name payload))
  | wakesUp {script name payload} (hcall : s.calls script = .sleeping name payload) :
      Steps s (.wakesUp script) (s.setCall script (.locking name payload))
  | callLocked {script name payload} (hcall : s.calls script = .locking name payload)
      (hwriter : s.writer = none) :
      Steps s (.callLocked script)
        { s.setCall script (.reading name payload) with readers := .script script :: s.readers }
  | refused {script name payload phase} (hcall : s.calls script = .reading name payload)
      (hphase : phase = .running ∨ phase = .sleeping name payload) (hcallee : s.callee? script = none) :
      Steps s (.runScript script) ((s.unlockShared (.script script)).setCall script phase)
  | runs {script name payload callee} (hcall : s.calls script = .reading name payload)
      (hcallee : s.callee? script =
        if (s.containers callee).mInitFailureMessage = [] then some callee else none) :
      Steps s (.runScript script)
        ((s.unlockShared (.script script)).handOver script callee (.call payload))
  | returns {script callee task} (hcall : s.calls script = .awaiting callee task) :
      Steps s (.returns script) (s.setCall script .running)

theorem steps_of_runScript {script : Nat} {name payload : ByteString}
    (hcall : s.calls script = .reading name payload) :
    s.Steps (.runScript script)
      ((s.unlockShared (.script script)).runScript script name payload) := by
  unfold runScript
  split
  · next hlookup =>
      have hcallee : s.callee? script = none := by
        simp only [callee?, hcall]
        rw [show s.mScripts.lookup name = none from hlookup]
        rfl
      split
      · exact .refused hcall (.inl rfl) hcallee
      · exact .refused hcall (.inr rfl) hcallee
  · next callee hlookup =>
      have hcallee : s.callee? script = (some callee).filter fun callee =>
          (s.containers callee).mState = .running ∧
            (s.containers callee).mInitFailureMessage = [] := by
        simp only [callee?, hcall]
        rw [show s.mScripts.lookup name = some callee from hlookup]
      split
      · next hrunning =>
          refine .runs hcall (hcallee.trans ?_)
          rw [Option.filter_some]
          refine if_congr ?_ rfl rfl
          rw [decide_eq_true_iff]
          exact and_iff_right hrunning
      · next hstopped =>
          refine .refused hcall (.inl rfl) (hcallee.trans ?_)
          rw [Option.filter_some, if_neg]
          rw [decide_eq_true_iff]
          exact fun h => hstopped h.1

theorem steps_of_step (hstep : s.step action = some t) : s.Steps action t := by
  cases action with
  | lock thread shared =>
      obtain ⟨⟨hrunning, hhas⟩, hstep⟩ := Option.ite_none_right_eq_some.mp hstep
      cases hstep
      exact .lock hrunning hhas
  | locked thread =>
      simp only [step] at hstep
      split at hstep
      · next hphase =>
          obtain ⟨⟨hwriter, hreaders⟩, hstep⟩ := Option.ite_none_right_eq_some.mp hstep
          cases hstep
          exact .locked hphase hwriter hreaders
      · next hphase =>
          obtain ⟨hwriter, hstep⟩ := Option.ite_none_right_eq_some.mp hstep
          cases hstep
          exact .lockedShared hphase hwriter
      · cases hstep
  | unlock thread =>
      obtain ⟨hrunning, hstep⟩ := Option.ite_none_right_eq_some.mp hstep
      split at hstep
      · next hwriter =>
          cases hstep
          exact .unlock hwriter hrunning
      · obtain ⟨hreader, hstep⟩ := Option.ite_none_right_eq_some.mp hstep
        cases hstep
        exact .unlockShared hreader
  | execute thread change fromStartup =>
      obtain ⟨⟨hwriter, hrunning⟩, hstep⟩ := Option.ite_none_right_eq_some.mp hstep
      split at hstep
      · next hdeletes =>
          cases hstep
          exact .visits hdeletes
      · next script hdeletes =>
          cases hstep
          exact .joins hwriter hrunning hdeletes
  | joined thread =>
      simp only [step] at hstep
      split at hstep
      · next hphase =>
          obtain ⟨-, hstep⟩ := Option.ite_none_right_eq_some.mp hstep
          cases hstep
          exact .joined hphase
      · cases hstep
  | publish thread script topic payload retained =>
      obtain ⟨-, hstep⟩ := Option.ite_none_right_eq_some.mp hstep
      cases hstep
      exact .container (.run (.publish topic payload retained)) trivial rfl
  | thread script action =>
      obtain ⟨-, hstep⟩ := Option.ite_none_right_eq_some.mp hstep
      obtain ⟨container, hcontainer, rfl⟩ := Option.map_eq_some_iff.mp hstep
      exact .container action trivial hcontainer
  | callScript script name payload =>
      obtain ⟨⟨-, hcall, -⟩, hstep⟩ := Option.ite_none_right_eq_some.mp hstep
      cases hstep
      exact .calls hcall
  | callLocked script =>
      simp only [step] at hstep
      split at hstep
      · next hcall =>
          obtain ⟨hwriter, hstep⟩ := Option.ite_none_right_eq_some.mp hstep
          cases hstep
          exact .callLocked hcall hwriter
      · cases hstep
  | runScript script =>
      simp only [step] at hstep
      split at hstep
      · next hcall =>
          cases hstep
          exact steps_of_runScript hcall
      · cases hstep
  | wakesUp script =>
      simp only [step] at hstep
      split at hstep
      · next hcall =>
          cases hstep
          exact .wakesUp hcall
      · cases hstep
  | returns script =>
      simp only [step] at hstep
      split at hstep
      · next hcall =>
          obtain ⟨-, hstep⟩ := Option.ite_none_left_eq_some.mp hstep
          cases hstep
          exact .returns hcall
      · cases hstep

/-- A request that waits for no thread. -/
theorem visit_frame (s : ScriptCalls) (fromStartup : Bool) (change : ScriptRequest) :
    (s.visit fromStartup change).writer = s.writer ∧
      (s.visit fromStartup change).readers = s.readers ∧
      (s.visit fromStartup change).threads = s.threads ∧
      (s.visit fromStartup change).calls = s.calls := by
  cases change with
  | addScript name code =>
      simp only [visit, addScript]
      split
      · exact ⟨rfl, rfl, rfl, rfl⟩
      · exact ⟨rfl, rfl, rfl, rfl⟩
  | deleteScript name => exact ⟨rfl, rfl, rfl, rfl⟩
  | activateScript name =>
      simp only [visit]
      split
      · exact ⟨rfl, rfl, rfl, rfl⟩
      · exact ⟨rfl, rfl, rfl, rfl⟩
  | deactivateScript name =>
      simp only [visit]
      split
      · exact ⟨rfl, rfl, rfl, rfl⟩
      · exact ⟨rfl, rfl, rfl, rfl⟩

end

/-- A script is as before, or has made a step. -/
def Moves (container container' : ScriptContainerJS) : Prop :=
  container' = container ∨ ∃ action, container.step action = some container'

theorem moves_setContainer {script : Nat} (containerAction : ScriptContainerJS.Action)
    {container : ScriptContainerJS} (hstep : (s.containers script).step containerAction = some container)
    (other : Nat) : Moves (s.containers other) ((s.setContainer script container).containers other) := by
  by_cases hother : other = script
  · subst hother
    have hself : (s.setContainer other container).containers other = container :=
      Function.update_self _ _ _
    exact .inr ⟨containerAction, hstep.trans (congrArg some hself.symm)⟩
  · exact .inl (Function.update_of_ne hother _ _)

variable [ScriptNames]

theorem moves_visit (s : ScriptCalls) (fromStartup : Bool) (change : ScriptRequest) (script : Nat) :
    Moves (s.containers script) ((s.visit fromStartup change).containers script) := by
  cases change with
  | addScript name code =>
      simp only [visit, addScript]
      split
      · exact .inl rfl
      · exact .inl rfl
  | deleteScript name => exact .inl rfl
  | activateScript name =>
      simp only [visit]
      split
      · exact .inl rfl
      · exact moves_setContainer .activate rfl script
  | deactivateScript name =>
      simp only [visit]
      split
      · exact .inl rfl
      · exact moves_setContainer .deactivate rfl script

theorem Steps.moves (hsteps : s.Steps action t) (script : Nat) :
    Moves (s.containers script) (t.containers script) := by
  cases hsteps with
  | visits hdeletes => exact moves_visit s _ _ script
  | joined hphase => exact moves_visit s _ _ script
  | joins hwriter hrunning hdeletes => exact moves_setContainer .forceQuit rfl script
  | container containerAction hopen hstep => exact moves_setContainer containerAction hstep script
  | @runs _ name payload callee hcall hcallee =>
      exact moves_setContainer (.run (.call payload)) rfl script
  | _ => exact .inl rfl

/-- An answer stays. -/
theorem Steps.answers (hsteps : s.Steps action t) (script task : Nat)
    (hnone : (t.containers script).answers task = 0) : (s.containers script).answers task = 0 := by
  rcases hsteps.moves script with hsame | ⟨containerAction, hstep⟩
  · exact hsame ▸ hnone
  · exact Nat.le_zero.mp (hnone ▸ ScriptContainerJS.answers_le_of_step hstep task)

/-! ## Who has the lock -/

structure Consistent (s : ScriptCalls) : Prop where
  exclusive : ∀ thread, s.writer = some thread → s.readers = []
  joins : ∀ thread change fromStartup script, s.threads thread = .joining change fromStartup script →
    s.writer = some thread
  holds : ∀ thread, s.Has thread → ∀ shared, s.threads thread ≠ .locking shared
  reads : ∀ script name payload, s.calls script = .reading name payload →
    .script script ∈ s.readers
  accounted : ∀ script, (s.containers script).Accounted

omit [ScriptNames] in
theorem consistent_initial (scripts : Nat) : (initial scripts).Consistent where
  exclusive := by rintro _ ⟨⟩
  joins := by rintro _ _ _ _ ⟨⟩
  holds := by rintro _ (h | h) <;> cases h
  reads := by rintro _ _ _ ⟨⟩
  accounted := fun _ => ScriptContainerJS.accounted_initial

omit [ScriptNames] in
theorem Consistent.congr (h : s.Consistent) (hwriter : t.writer = s.writer)
    (hreaders : t.readers = s.readers) (hthreads : t.threads = s.threads) (hcalls : t.calls = s.calls)
    (haccounted : ∀ script, (t.containers script).Accounted) : t.Consistent where
  exclusive := by
    rw [hwriter, hreaders]
    exact h.exclusive
  joins := by
    rw [hwriter, hthreads]
    exact h.joins
  holds := by
    unfold Has
    rw [hwriter, hreaders, hthreads]
    exact h.holds
  reads := by
    rw [hreaders, hcalls]
    exact h.reads
  accounted := haccounted

omit [ScriptNames] in
/-- A thread of the application goes on. -/
theorem Consistent.setThread (h : s.Consistent) (thread : Thread) (phase : ThreadPhase)
    (hjoins : ∀ change fromStartup script, phase = .joining change fromStartup script →
      s.writer = some thread) (hholds : s.Has thread → ∀ shared, phase ≠ .locking shared) :
    (s.setThread thread phase).Consistent where
  exclusive := h.exclusive
  joins := by
    intro other change fromStartup script hphase
    by_cases hother : other = thread
    · subst hother
      exact hjoins change fromStartup script ((Function.update_self _ _ _).symm.trans hphase)
    · exact h.joins other change fromStartup script ((Function.update_of_ne hother _ _).symm.trans hphase)
  holds := by
    intro other hhas shared hphase
    by_cases hother : other = thread
    · subst hother
      exact hholds hhas shared ((Function.update_self _ _ _).symm.trans hphase)
    · exact h.holds other hhas shared ((Function.update_of_ne hother _ _).symm.trans hphase)
  reads := h.reads
  accounted := h.accounted

omit [ScriptNames] in
/-- The thread of a script goes on, and has not got the lock afterwards. -/
theorem Consistent.setCall (h : s.Consistent) (script : Nat) (phase : CallPhase)
    {readers : List Waiter} (hphase : ∀ name payload, phase ≠ .reading name payload)
    (hreaders : readers = s.readers ∨ readers = s.readers.erase (.script script)) :
    (ScriptCalls.setCall { s with readers := readers } script phase).Consistent := by
  have hsub : ∀ reader ∈ readers, reader ∈ s.readers := by
    rcases hreaders with rfl | rfl
    · exact fun _ hreader => hreader
    · exact fun _ hreader => List.mem_of_mem_erase hreader
  refine ⟨fun thread hwriter => ?_, h.joins, fun thread hhas => ?_, ?_, h.accounted⟩
  · have hnone := h.exclusive thread hwriter
    exact List.eq_nil_iff_forall_not_mem.mpr fun reader hreader => by
      have hmem := hsub reader hreader
      rw [hnone] at hmem
      cases hmem
  · exact h.holds thread (hhas.imp id fun hreader => hsub _ hreader)
  · intro other name payload hreading
    by_cases hother : other = script
    · subst hother
      exact absurd ((Function.update_self _ _ _).symm.trans hreading) (hphase name payload)
    · have hmem := h.reads other name payload ((Function.update_of_ne hother _ _).symm.trans hreading)
      rcases hreaders with rfl | rfl
      · exact hmem
      · exact (List.mem_erase_of_ne (by rintro ⟨⟩; exact hother rfl)).mpr hmem

omit [ScriptNames] in
theorem Consistent.writer_eq_none (h : s.Consistent) {script : Nat} {name payload : ByteString}
    (hcall : s.calls script = .reading name payload) : s.writer = none := by
  have hmem := h.reads script name payload hcall
  cases hwriter : s.writer with
  | none => rfl
  | some thread =>
      rw [h.exclusive thread hwriter] at hmem
      cases hmem

theorem Steps.accounted (hsteps : s.Steps action t) (h : s.Consistent) (script : Nat) :
    (t.containers script).Accounted := by
  rcases hsteps.moves script with hsame | ⟨containerAction, hstep⟩
  · exact hsame ▸ h.accounted script
  · exact (h.accounted script).step hstep

theorem Consistent.step (h : s.Consistent) (hsteps : s.Steps action t) : t.Consistent := by
  have haccounted := hsteps.accounted h
  cases hsteps with
  | lock hrunning hhas => exact h.setThread _ _ (by rintro _ _ _ ⟨⟩) fun h => absurd h hhas
  | @locked thread hphase hwriter hreaders =>
      -- There was no writer, so nobody joins, and no reader, so nobody else has the lock.
      have hset := h.setThread thread .running (by rintro _ _ _ ⟨⟩)
        (by rintro _ _ ⟨⟩)
      refine ⟨fun _ _ => hreaders, fun other change fromStartup script hjoining => ?_,
        fun other hhas shared => ?_, hset.reads, haccounted⟩
      · exact absurd ((hset.joins other change fromStartup script hjoining).symm.trans hwriter)
          (Option.some_ne_none _)
      · by_cases hother : other = thread
        · subst hother
          exact fun hlocking => by cases (threads_setThread_self s other .running).symm.trans hlocking
        · refine hset.holds other ?_ shared
          rcases hhas with hhas | hhas
          · exact absurd (Option.some.inj hhas).symm hother
          · exact .inr hhas
  | @lockedShared thread hphase hwriter =>
      have hset := h.setThread thread .running (by rintro _ _ _ ⟨⟩)
        (by rintro _ _ ⟨⟩)
      refine ⟨fun other hother => ?_, hset.joins, fun other hhas shared => ?_,
        fun script name payload hreading => ?_, haccounted⟩
      · exact absurd (hother.symm.trans hwriter) (Option.some_ne_none _)
      · by_cases hother : other = thread
        · subst hother
          exact fun hlocking => by cases (threads_setThread_self s other .running).symm.trans hlocking
        · refine hset.holds other ?_ shared
          refine hhas.imp id fun hreader => ?_
          rcases List.mem_cons.mp hreader with heq | hmem
          · exact absurd (Waiter.application.inj heq) hother
          · exact hmem
      · exact List.mem_cons_of_mem _ (h.reads script name payload hreading)
  | @unlock thread hwriter hrunning =>
      -- The writer runs, and only the writer could have been joining.
      refine ⟨by rintro _ ⟨⟩, fun other change fromStartup script hjoining => ?_,
        fun other hhas => ?_, h.reads, haccounted⟩
      · cases hwriter.symm.trans (h.joins other change fromStartup script hjoining)
        cases hrunning.symm.trans hjoining
      · rcases hhas with hhas | hhas
        · cases hhas
        · exact h.holds other (.inr hhas)
  | @unlockShared thread hreader =>
      refine ⟨fun other hother => ?_, h.joins, fun other hhas => ?_,
        fun script name payload hreading => ?_, haccounted⟩
      · rw [h.exclusive other hother] at hreader
        cases hreader
      · exact h.holds other (hhas.imp id List.mem_of_mem_erase)
      · exact (List.mem_erase_of_ne (by rintro ⟨⟩)).mpr (h.reads script name payload hreading)
  | @visits thread change fromStartup hdeletes =>
      obtain ⟨hwriter, hreaders, hthreads, hcalls⟩ := visit_frame s fromStartup change
      exact h.congr hwriter hreaders hthreads hcalls haccounted
  | @joins thread change fromStartup script hwriter hrunning hdeletes =>
      -- The lock is kept during the join.
      have hset := h.setThread thread (.joining change fromStartup script)
        (fun _ _ _ _ => hwriter) (by rintro _ _ ⟨⟩)
      exact hset.congr rfl rfl rfl rfl haccounted
  | @joined thread change fromStartup script hphase =>
      obtain ⟨hwriter, hreaders, hthreads, hcalls⟩ := visit_frame s fromStartup change
      have hset := h.setThread thread .running (by rintro _ _ _ ⟨⟩)
        (by rintro _ _ ⟨⟩)
      refine hset.congr hwriter hreaders ?_ hcalls haccounted
      exact congrArg (fun threads : Thread → ThreadPhase => Function.update threads thread .running)
        hthreads
  | container containerAction hopen hstep => exact h.congr rfl rfl rfl rfl haccounted
  | calls hcall => exact h.setCall _ _ (by rintro _ _ ⟨⟩) (.inl rfl)
  | wakesUp hcall => exact h.setCall _ _ (by rintro _ _ ⟨⟩) (.inl rfl)
  | @callLocked script name payload hcall hwriter =>
      refine ⟨fun other hother => ?_, h.joins, fun other hhas => ?_,
        fun other name payload hreading => ?_, haccounted⟩
      · exact absurd (hother.symm.trans hwriter) (Option.some_ne_none _)
      · refine h.holds other (hhas.imp id fun hreader => ?_)
        rcases List.mem_cons.mp hreader with heq | hmem
        · cases heq
        · exact hmem
      · by_cases hother : other = script
        · subst hother
          exact List.mem_cons_self
        · exact List.mem_cons_of_mem _
            (h.reads other name payload ((Function.update_of_ne hother _ _).symm.trans hreading))
  | refused hcall hphase hcallee =>
      refine h.setCall _ _ ?_ (.inr rfl)
      rcases hphase with rfl | rfl
      · rintro _ _ ⟨⟩
      · rintro _ _ ⟨⟩
  | @runs script name payload callee hcall hcallee =>
      have hset := h.setCall script
        (.awaiting callee (s.containers callee).nextTask) (by rintro _ _ ⟨⟩) (.inr rfl)
      exact hset.congr rfl rfl rfl rfl haccounted
  | returns hcall => exact h.setCall _ _ (by rintro _ _ ⟨⟩) (.inl rfl)

/-! ## Whom a thread waits for -/

section

omit [ScriptNames]

/-- A wait was there before, unless the one who waits or the one who is waited for has
changed. -/
theorem WaitsFor.of {x y : Waiter} (h : t.WaitsFor x y)
    (hthread : ∀ thread, x = .application thread →
      t.threads thread = s.threads thread ∨ t.threads thread = .running)
    (hcall : ∀ script, x = .script script →
      t.calls script = s.calls script ∨ (t.calls script).isIdle = true)
    (hwrites : t.Writes y → s.Writes y) (hreaders : y ∈ t.readers → y ∈ s.readers)
    (hanswers : ∀ script task, (t.containers script).answers task = 0 →
      (s.containers script).answers task = 0) : s.WaitsFor x y := by
  cases h with
  | @locking thread shared _ hphase hholds =>
      rcases hthread thread rfl with hsame | hrunning
      · exact .locking (hsame.symm.trans hphase) (hholds.imp hwrites fun h => ⟨h.1, hreaders h.2⟩)
      · cases hrunning.symm.trans hphase
  | @joining thread change fromStartup script hphase =>
      rcases hthread thread rfl with hsame | hrunning
      · exact .joining (hsame.symm.trans hphase)
      · cases hrunning.symm.trans hphase
  | @callLocking script name payload _ hphase hw =>
      rcases hcall script rfl with hsame | hidle
      · exact .callLocking (hsame.symm.trans hphase) (hwrites hw)
      · rw [hphase] at hidle
        cases hidle
  | @awaiting script callee hawaits =>
      obtain ⟨task, hphase, hanswer⟩ := hawaits
      rcases hcall script rfl with hsame | hidle
      · exact .awaiting ⟨task, hsame.symm.trans hphase, hanswers callee task hanswer⟩
      · rw [hphase] at hidle
        cases hidle

theorem not_waitsFor_of_running {thread : Thread} (hrunning : s.threads thread = .running)
    (y : Waiter) : ¬ s.WaitsFor (.application thread) y := by
  intro h
  cases h with
  | locking hphase => cases hrunning.symm.trans hphase
  | joining hphase => cases hrunning.symm.trans hphase

theorem not_waitsFor_of_isIdle {script : Nat} (hidle : (s.calls script).isIdle = true)
    (y : Waiter) : ¬ s.WaitsFor (.script script) y := by
  intro h
  cases h with
  | callLocking hphase =>
      rw [hphase] at hidle
      cases hidle
  | awaiting hawaits =>
      obtain ⟨task, hphase, -⟩ := hawaits
      rw [hphase] at hidle
      cases hidle

/-- Nobody waits for a thread of the application that has not got the lock. -/
theorem not_waitsFor_of_not_has {thread : Thread} (hhas : ¬ s.Has thread) (x : Waiter) :
    ¬ s.WaitsFor x (.application thread) := by
  have hwriter : ¬ s.Writes (.application thread) := by
    rintro ⟨writer, hwriter, heq⟩
    cases heq
    exact hhas (.inl hwriter)
  intro h
  cases h with
  | locking hphase hholds =>
      rcases hholds with hwrites | ⟨-, hreader⟩
      · exact hwriter hwrites
      · exact hhas (.inr hreader)
  | callLocking hphase hwrites => exact hwriter hwrites

/-! ## Chains of waits and chains of calls -/

/-- A chain of calls is kept where nobody stops waiting and nobody is answered. -/
theorem CallsUpTo.of {first last : Nat} (h : s.CallsUpTo first last)
    (hcalls : ∀ script callee task, s.calls script = .awaiting callee task →
      t.calls script = .awaiting callee task)
    (hanswers : ∀ other task,
      (t.containers other).answers task = (s.containers other).answers task) :
    t.CallsUpTo first last := by
  refine Relation.ReflTransGen.mono (fun script callee hawaits => ?_) _ _ h
  obtain ⟨task, hphase, hanswer⟩ := hawaits
  exact ⟨task, hcalls script callee task hphase, (hanswers callee task).trans hanswer⟩

theorem waitsFor_of_callsUpTo {script last : Nat} (h : s.CallsUpTo script last) :
    Relation.ReflTransGen s.WaitsFor (.script script) (.script last) :=
  h.lift Waiter.script fun _ _ hawaits => .awaiting hawaits

/-- Without a writer, a script waits for those it calls up to. -/
theorem callsUpTo_of_waitsFor {script : Nat} {y : Waiter} (hwriter : s.writer = none)
    (h : Relation.ReflTransGen s.WaitsFor (.script script) y) :
    ∃ last, y = .script last ∧ s.CallsUpTo script last := by
  induction h with
  | refl => exact ⟨script, rfl, .refl⟩
  | tail _ hedge ih =>
      obtain ⟨last, rfl, hup⟩ := ih
      cases hedge with
      | callLocking hphase hwrites =>
          obtain ⟨writer, hsome, -⟩ := hwrites
          cases hwriter.symm.trans hsome
      | awaiting hawaits => exact ⟨_, rfl, hup.tail hawaits⟩

/-- With a writer, it waits for him as well, if it calls up to one that waits for the lock. -/
theorem callsUpTo_or_isLocking_of_waitsFor {script : Nat} {y : Waiter}
    (h : Relation.ReflTransGen s.WaitsFor (.script script) y) :
    (∃ last, y = .script last ∧ s.CallsUpTo script last) ∨
      ∃ last, s.CallsUpTo script last ∧ (s.calls last).isLocking = true := by
  induction h with
  | refl => exact .inl ⟨script, rfl, .refl⟩
  | tail _ hedge ih =>
      rcases ih with ⟨last, rfl, hup⟩ | hlocking
      · cases hedge with
        | callLocking hphase hwrites =>
            refine .inr ⟨last, hup, ?_⟩
            rw [hphase]
            rfl
        | awaiting hawaits => exact .inl ⟨_, rfl, hup.tail hawaits⟩
      · exact .inr hlocking

theorem joined?_eq_some {joined : Nat} :
    s.joined? = some joined ↔
      ∃ thread change fromStartup, s.writer = some thread ∧
        s.threads thread = .joining change fromStartup joined := by
  unfold joined?
  cases hwriter : s.writer with
  | none => exact iff_of_false (by rintro ⟨⟩) (by rintro ⟨_, _, _, ⟨⟩, _⟩)
  | some thread =>
      simp only [Option.map_some]
      split
      · next change fromStartup script hphase =>
          rw [Option.some.injEq] at hphase ⊢
          constructor
          · rintro rfl
            exact ⟨thread, change, fromStartup, rfl, hphase⟩
          · rintro ⟨_, _, _, heq, hjoining⟩
            cases heq
            cases hphase.symm.trans hjoining
            rfl
      · next hnot =>
          refine iff_of_false (by rintro ⟨⟩) ?_
          rintro ⟨_, change, fromStartup, heq, hjoining⟩
          cases heq
          exact hnot change fromStartup joined (congrArg some hjoining)

/-- The writer waits for the script whose thread he joins, and for those it calls up to. -/
theorem callsUpTo_of_waitsFor_writer (h : s.Consistent) {thread : Thread} {y : Waiter}
    (hwriter : s.writer = some thread)
    (hpath : Relation.ReflTransGen s.WaitsFor (.application thread) y) :
    y = .application thread ∨
      ∃ joined last, s.joined? = some joined ∧ y = .script last ∧ s.CallsUpTo joined last := by
  induction hpath with
  | refl => exact .inl rfl
  | tail _ hedge ih =>
      rcases ih with rfl | ⟨joined, last, hjoined, rfl, hup⟩
      · cases hedge with
        | locking hphase => exact absurd hphase (h.holds thread (.inl hwriter) _)
        | @joining _ change fromStartup script hphase =>
            exact .inr ⟨script, script, joined?_eq_some.mpr ⟨thread, change, fromStartup, hwriter, hphase⟩,
              rfl, .refl⟩
      · cases hedge with
        | callLocking hphase hwrites =>
            obtain ⟨writer, hsome, rfl⟩ := hwrites
            cases hwriter.symm.trans hsome
            exact .inl rfl
        | awaiting hawaits => exact .inr ⟨joined, _, hjoined, rfl, hup.tail hawaits⟩

theorem deadlockFree_iff (h : s.Consistent) : s.DeadlockFree ↔ WaitFor.Acyclic s.WaitsFor := by
  refine ⟨DeadlockFree.acyclic, fun hacyclic => ⟨hacyclic, ?_⟩⟩
  intro thread change fromStartup script hphase
  cases hcall : s.calls script with
  | locking name payload =>
      have hback : s.WaitsFor (.script script) (.application thread) :=
        .callLocking hcall ⟨thread, h.joins thread change fromStartup script hphase, rfl⟩
      exact absurd hacyclic (WaitFor.not_acyclic (.joining hphase) (.single hback))
  | _ => rfl

/-! ## What closes a chain -/

theorem setThread_of_ne {thread other : Thread} (phase : ThreadPhase) (hother : other ≠ thread) :
    (s.setThread thread phase).threads other = s.threads other :=
  Function.update_of_ne hother _ _

theorem setCall_of_ne {script other : Nat} (phase : CallPhase) (hother : other ≠ script) :
    (s.setCall script phase).calls other = s.calls other :=
  Function.update_of_ne hother _ _

theorem calls_setCall_self (s : ScriptCalls) (script : Nat) (phase : CallPhase) :
    (s.setCall script phase).calls script = phase := Function.update_self _ _ _

theorem setThread_running (s : ScriptCalls) (thread other : Thread) :
    (s.setThread thread .running).threads other = s.threads other ∨
      (s.setThread thread .running).threads other = .running := by
  by_cases hother : other = thread
  · subst hother
    exact .inr (threads_setThread_self s other .running)
  · exact .inl (setThread_of_ne .running hother)

theorem setCall_isIdle (s : ScriptCalls) {phase : CallPhase} (hidle : phase.isIdle = true)
    (script other : Nat) :
    (s.setCall script phase).calls other = s.calls other ∨
      ((s.setCall script phase).calls other).isIdle = true := by
  by_cases hother : other = script
  · subst hother
    exact .inr ((congrArg CallPhase.isIdle (calls_setCall_self s other phase)).trans hidle)
  · exact .inl (setCall_of_ne phase hother)

/-- A script that waits for nobody is not in the middle of a chain of calls. -/
theorem callsUpTo_setCall {script first last : Nat} (phase : CallPhase)
    (hidle : (s.calls script).isIdle = true) (h : s.CallsUpTo first last) :
    (s.setCall script phase).CallsUpTo first last := by
  refine h.of (fun other callee task hphase => ?_) fun _ _ => rfl
  have hother : other ≠ script := by
    rintro rfl
    rw [hphase] at hidle
    cases hidle
  exact (setCall_of_ne phase hother).trans hphase

/-- A script that starts a call waits for the writer. -/
theorem acyclic_setCall_locking_iff (h : s.Consistent) (hacyclic : WaitFor.Acyclic s.WaitsFor)
    {script : Nat} (hidle : (s.calls script).isIdle = true) (name payload : ByteString) :
    WaitFor.Acyclic (s.setCall script (.locking name payload)).WaitsFor ↔
      ∀ joined, s.joined? = some joined → ¬ s.CallsUpTo joined script := by
  have hself := calls_setCall_self s script (.locking name payload)
  constructor
  · intro hacyclic' joined hjoined hup
    obtain ⟨thread, change, fromStartup, hwriter, hphase⟩ := joined?_eq_some.mp hjoined
    have hback := waitsFor_of_callsUpTo (callsUpTo_setCall (.locking name payload) hidle hup)
    have hjoins : (s.setCall script (.locking name payload)).WaitsFor (.application thread)
        (.script joined) := .joining hphase
    exact WaitFor.not_acyclic (.callLocking hself ⟨thread, hwriter, rfl⟩) (hback.head hjoins) hacyclic'
  · intro hopen
    have hedge : ∀ x y, (s.setCall script (.locking name payload)).WaitsFor x y →
        s.WaitsFor x y ∨ x = .script script ∧ s.Writes y := by
      intro x y hxy
      by_cases hx : x = .script script
      · subst hx
        cases hxy with
        | callLocking hphase hwrites => exact .inr ⟨rfl, hwrites⟩
        | awaiting hawaits =>
            obtain ⟨task, hphase, -⟩ := hawaits
            cases hself.symm.trans hphase
      · refine .inl (hxy.of (fun _ _ => .inl rfl) (fun other heq => .inl ?_) id id fun _ _ => id)
        exact setCall_of_ne _ fun hother => hx (heq.trans (congrArg Waiter.script hother))
    cases hwriter : s.writer with
    | none =>
        refine hacyclic.mono fun x y hxy => (hedge x y hxy).elim id ?_
        rintro ⟨-, thread, hsome, -⟩
        cases hwriter.symm.trans hsome
    | some thread =>
        refine hacyclic.insert (p := .script script) (q := .application thread) (fun x y hxy => ?_)
          fun hback => ?_
        · refine (hedge x y hxy).imp id ?_
          rintro ⟨rfl, writer, hsome, rfl⟩
          cases hwriter.symm.trans hsome
          exact ⟨rfl, rfl⟩
        · rcases callsUpTo_of_waitsFor_writer h hwriter hback with heq | ⟨joined, last, hjoined, heq, hup⟩
          · cases heq
          · cases heq
            exact hopen joined hjoined hup

/-- The writer begins to wait for a script. -/
theorem acyclic_joining_iff (hacyclic : WaitFor.Acyclic s.WaitsFor) {thread : Thread}
    (hwriter : s.writer = some thread) {script : Nat} (container : ScriptContainerJS)
    (hanswers : ∀ task, container.answers task = (s.containers script).answers task)
    (change : ScriptRequest) (fromStartup : Bool) :
    WaitFor.Acyclic ((s.setContainer script container).setThread thread
        (.joining change fromStartup script)).WaitsFor ↔
      ∀ last, s.CallsUpTo script last → (s.calls last).isLocking = false := by
  have hself := threads_setThread_self (s.setContainer script container) thread
    (.joining change fromStartup script)
  have hsame : ∀ other task, ((s.setContainer script container).containers other).answers task =
      (s.containers other).answers task := by
    intro other task
    by_cases hother : other = script
    · subst hother
      have hset : (s.setContainer other container).containers other = container :=
        Function.update_self _ _ _
      rw [hset, hanswers]
    · exact congrArg (ScriptContainerJS.answers · task) (Function.update_of_ne hother _ _)
  constructor
  · intro hacyclic' last hup
    cases hcall : s.calls last with
    | locking name payload =>
        have hup' : ((s.setContainer script container).setThread thread
            (.joining change fromStartup script)).CallsUpTo script last :=
          hup.of (fun _ _ _ hphase => hphase) hsame
        refine absurd hacyclic' (WaitFor.not_acyclic (.joining hself)
          ((waitsFor_of_callsUpTo hup').tail ?_))
        exact .callLocking hcall ⟨thread, hwriter, rfl⟩
    | _ => rfl
  · intro hopen
    refine hacyclic.insert (p := .application thread) (q := .script script) (fun x y hxy => ?_)
      fun hback => ?_
    · by_cases hx : x = .application thread
      · subst hx
        cases hxy with
        | locking hphase => cases hself.symm.trans hphase
        | joining hphase =>
            cases hself.symm.trans hphase
            exact .inr ⟨rfl, rfl⟩
      · refine .inl (hxy.of (fun other heq => .inl ?_) (fun _ _ => .inl rfl) id id
          fun other task hanswer => (hsame other task).symm.trans hanswer)
        exact setThread_of_ne _ fun hother => hx (heq.trans (congrArg Waiter.application hother))
    · rcases callsUpTo_or_isLocking_of_waitsFor hback with ⟨last, heq, -⟩ | ⟨last, hup, hlocking⟩
      · cases heq
      · rw [hopen last hup] at hlocking
        cases hlocking

theorem answers_handOver (s : ScriptCalls) (script callee : Nat) (input : ScriptInput)
    (other task : Nat) :
    ((s.handOver script callee input).containers other).answers task =
      (s.containers other).answers task +
        if other = callee ∧ (s.containers callee).mInitFailureMessage ≠ [] ∧
          (s.containers callee).nextTask = task then 1 else 0 := by
  by_cases hother : other = callee
  · subst hother
    have hset : (s.handOver script other input).containers other = (s.containers other).run input :=
      Function.update_self _ _ _
    rw [hset, ScriptContainerJS.answers_run]
    exact congrArg _ (if_congr (and_iff_right rfl).symm rfl rfl)
  · have hset : (s.handOver script callee input).containers other = s.containers other :=
      Function.update_of_ne hother _ _
    rw [hset, if_neg fun h => hother h.1]
    rfl

/-- A script hands a call over, and begins to wait for the answer. -/
theorem acyclic_handOver_iff (h : s.Consistent) (hacyclic : WaitFor.Acyclic s.WaitsFor)
    {script : Nat} {name payload : ByteString} (hcall : s.calls script = .reading name payload)
    (callee : Nat) (input : ScriptInput) :
    WaitFor.Acyclic ((s.unlockShared (.script script)).handOver script callee input).WaitsFor ↔
      ((s.containers callee).mInitFailureMessage = [] → ¬ s.CallsUpTo callee script) := by
  have hself : ((s.unlockShared (.script script)).handOver script callee input).calls script =
      .awaiting callee (s.containers callee).nextTask := Function.update_self _ _ _
  have hanswers := answers_handOver (s.unlockShared (.script script)) script callee input
  have hidle : (s.calls script).isIdle = true := by
    rw [hcall]
    rfl
  have hedge : ∀ x y, ((s.unlockShared (.script script)).handOver script callee input).WaitsFor x y →
      s.WaitsFor x y ∨ (x = .script script ∧ y = .script callee) ∧
        (s.containers callee).mInitFailureMessage = [] := by
    intro x y hxy
    by_cases hx : x = .script script
    · subst hx
      cases hxy with
      | callLocking hphase => cases hself.symm.trans hphase
      | awaiting hawaits =>
          obtain ⟨task, hphase, hanswer⟩ := hawaits
          cases hself.symm.trans hphase
          refine .inr ⟨⟨rfl, rfl⟩, ?_⟩
          by_contra hfailed
          have hanswered := hanswers callee (s.containers callee).nextTask
          rw [if_pos ⟨rfl, hfailed, rfl⟩, hanswer] at hanswered
          cases hanswered
    · refine .inl (hxy.of (fun _ _ => .inl rfl) (fun other heq => .inl ?_) id List.mem_of_mem_erase
        fun other task hanswer => ?_)
      · exact setCall_of_ne _ fun hother => hx (heq.trans (congrArg Waiter.script hother))
      · exact Nat.eq_zero_of_add_eq_zero_right ((hanswers other task).symm.trans hanswer)
  constructor
  · intro hacyclic' hstarted hup
    have hnew : (s.containers callee).answers (s.containers callee).nextTask = 0 := by
      have hcounted := (h.accounted callee).counted (s.containers callee).nextTask
      rw [if_neg (Nat.lt_irrefl _)] at hcounted
      exact Nat.eq_zero_of_add_eq_zero_right hcounted
    have hsame : ∀ other task,
        (((s.unlockShared (.script script)).handOver script callee input).containers other).answers task =
          (s.containers other).answers task := by
      intro other task
      rw [hanswers other task, if_neg fun hfailed => hfailed.2.1 hstarted]
      rfl
    have hup' : ((s.unlockShared (.script script)).handOver script callee input).CallsUpTo callee
        script :=
      (callsUpTo_setCall (.awaiting callee (s.containers callee).nextTask) hidle hup).of
        (fun _ _ _ hphase => hphase) hsame
    have hawaits : ((s.unlockShared (.script script)).handOver script callee input).Awaits script
        callee := ⟨_, hself, (hsame callee _).trans hnew⟩
    exact WaitFor.not_acyclic (.awaiting hawaits) (waitsFor_of_callsUpTo hup') hacyclic'
  · intro hopen
    by_cases hstarted : (s.containers callee).mInitFailureMessage = []
    · refine hacyclic.insert (p := .script script) (q := .script callee)
        (fun x y hxy => (hedge x y hxy).imp id And.left) fun hback => ?_
      obtain ⟨last, heq, hup⟩ := callsUpTo_of_waitsFor (h.writer_eq_none hcall) hback
      cases heq
      exact hopen hstarted hup
    · exact hacyclic.mono fun x y hxy => (hedge x y hxy).elim id fun hnew => absurd hnew.2 hstarted

end

/-- A step whose waits were there before. -/
theorem Steps.acyclic_of_frame (hsteps : s.Steps action t) (hacyclic : WaitFor.Acyclic s.WaitsFor)
    (hthreads : ∀ thread, t.threads thread = s.threads thread ∨ t.threads thread = .running)
    (hcalls : ∀ script, t.calls script = s.calls script ∨ (t.calls script).isIdle = true)
    (hwrites : ∀ y, t.Writes y → s.Writes y) (hreaders : ∀ y ∈ t.readers, y ∈ s.readers) :
    WaitFor.Acyclic t.WaitsFor :=
  hacyclic.mono fun _ y hxy => hxy.of (fun thread _ => hthreads thread)
    (fun script _ => hcalls script) (hwrites y) (hreaders y) hsteps.answers

/-- A step keeps the waits free of cycles exactly if it closes no chain of calls. -/
theorem Steps.acyclic_iff (hsteps : s.Steps action t) (h : s.Consistent)
    (hacyclic : WaitFor.Acyclic s.WaitsFor) : WaitFor.Acyclic t.WaitsFor ↔ s.KeepsOpen action := by
  have hanswers := hsteps.answers
  have hframe := hsteps.acyclic_of_frame hacyclic
  cases hsteps with
  | @lock thread shared hrunning hhas =>
      -- Nobody waits for a thread that does not have the lock.
      refine iff_of_true (hacyclic.source (p := .application thread) (fun x y hxy => ?_) ?_) trivial
      · by_cases hx : x = .application thread
        · exact .inr hx
        · refine .inl (hxy.of (fun other heq => .inl ?_) (fun _ _ => .inl rfl) id id hanswers)
          exact setThread_of_ne _ fun hother => hx (heq.trans (congrArg Waiter.application hother))
      · exact not_waitsFor_of_not_has hhas
  | @locked thread hphase hwriter hreaders =>
      -- The others may now wait for the thread, but it runs.
      refine iff_of_true (hacyclic.sink (q := .application thread) (fun x y hxy => ?_) ?_) trivial
      · by_cases hy : y = .application thread
        · exact .inr hy
        · refine .inl (hxy.of (fun other _ => setThread_running s thread other) (fun _ _ => .inl rfl)
            (fun hwrites => ?_) id hanswers)
          obtain ⟨writer, heq, hwrites⟩ := hwrites
          cases heq
          exact absurd hwrites hy
      · exact not_waitsFor_of_running (threads_setThread_self s thread .running)
  | @lockedShared thread hphase hwriter =>
      refine iff_of_true (hacyclic.sink (q := .application thread) (fun x y hxy => ?_) ?_) trivial
      · by_cases hy : y = .application thread
        · exact .inr hy
        · refine .inl (hxy.of (fun other _ => setThread_running s thread other) (fun _ _ => .inl rfl)
            id (fun hreader => ?_) hanswers)
          exact (List.mem_cons.mp hreader).resolve_left hy
      · exact not_waitsFor_of_running (threads_setThread_self s thread .running)
  | unlock hwriter hrunning =>
      refine iff_of_true (hframe (fun _ => .inl rfl) (fun _ => .inl rfl) ?_ fun _ hreader => hreader)
        trivial
      rintro _ ⟨_, ⟨⟩, _⟩
  | unlockShared hreader =>
      exact iff_of_true (hframe (fun _ => .inl rfl) (fun _ => .inl rfl) (fun _ hwrites => hwrites)
        fun _ hreader => List.mem_of_mem_erase hreader) trivial
  | @visits thread change fromStartup hdeletes =>
      obtain ⟨hwriter, hreaders, hthreads, hcalls⟩ := visit_frame s fromStartup change
      refine iff_of_true (hframe (fun thread => .inl (congrFun hthreads thread))
        (fun script => .inl (congrFun hcalls script)) (fun _ hwrites => ?_)
        fun _ hreader => hreaders ▸ hreader) fun script hscript => ?_
      · obtain ⟨writer, hsome, heq⟩ := hwrites
        exact ⟨writer, hwriter.symm.trans hsome, heq⟩
      · cases hdeletes.symm.trans hscript
  | @joins thread change fromStartup script hwriter hrunning hdeletes =>
      -- `forceQuit` answers no call.
      rw [acyclic_joining_iff hacyclic hwriter (s.containers script).forceQuit fun _ => rfl]
      constructor
      · intro hopen script' hscript'
        cases hdeletes.symm.trans hscript'
        exact hopen
      · exact fun hopen => hopen script hdeletes
  | @joined thread change fromStartup script hphase =>
      obtain ⟨hwriter, hreaders, hthreads, hcalls⟩ := visit_frame s fromStartup change
      refine iff_of_true (hframe (fun other => ?_) (fun script => .inl (congrFun hcalls script))
        (fun _ hwrites => ?_) fun _ hreader => hreaders ▸ hreader) trivial
      · refine (setThread_running _ thread other).imp (fun hsame => ?_) id
        exact hsame.trans (congrFun hthreads other)
      · obtain ⟨writer, hsome, heq⟩ := hwrites
        exact ⟨writer, hwriter.symm.trans hsome, heq⟩
  | container containerAction hopen hstep =>
      exact iff_of_true (hframe (fun _ => .inl rfl) (fun _ => .inl rfl) (fun _ hwrites => hwrites)
        fun _ hreader => hreader) hopen
  | calls hcall => exact acyclic_setCall_locking_iff h hacyclic (by rw [hcall]; rfl) _ _
  | wakesUp hcall => exact acyclic_setCall_locking_iff h hacyclic (by rw [hcall]; rfl) _ _
  | @callLocked script name payload hcall hwriter =>
      -- A writer may wait for the script, which only reads.
      have hcallIdle := setCall_isIdle s (rfl : (CallPhase.reading name payload).isIdle = true) script
      refine iff_of_true (hacyclic.sink (q := .script script) (fun x y hxy => ?_) ?_) trivial
      · by_cases hy : y = .script script
        · exact .inr hy
        · refine .inl (hxy.of (fun _ _ => .inl rfl) (fun other _ => hcallIdle other) id
            (fun hreader => ?_) hanswers)
          exact (List.mem_cons.mp hreader).resolve_left hy
      · exact not_waitsFor_of_isIdle
          (congrArg CallPhase.isIdle (calls_setCall_self s script (.reading name payload)))
  | @refused script name payload phase hcall hphase hcallee =>
      -- Without a callee the script goes on or sleeps: it waits for nobody.
      have hidle : phase.isIdle = true := by
        rcases hphase with rfl | rfl
        · rfl
        · rfl
      refine iff_of_true (hframe (fun _ => .inl rfl) (setCall_isIdle _ hidle script)
        (fun _ hwrites => hwrites) fun _ hreader => List.mem_of_mem_erase hreader) fun callee hsome => ?_
      cases hcallee.symm.trans hsome
  | @runs script name payload callee hcall hcallee =>
      rw [acyclic_handOver_iff h hacyclic hcall]
      constructor
      · intro hopen callee' hsome
        obtain ⟨hstarted, heq⟩ := Option.ite_none_right_eq_some.mp (hcallee.symm.trans hsome)
        cases heq
        exact hopen hstarted
      · exact fun hopen hstarted => hopen callee (hcallee.trans (if_pos hstarted))
  | @returns script callee task hcall =>
      exact iff_of_true (hframe (fun _ => .inl rfl) (setCall_isIdle s rfl script)
        (fun _ hwrites => hwrites) fun _ hreader => hreader) trivial

/-! ## Over the runs -/

/-- Over a run nobody waits for himself, and nobody with the lock for a thread that waits for
it, exactly if no step closes a chain of calls. -/
theorem deadlockFree_iff_keepsOpen {scripts : Nat} {run : List (Action × ScriptCalls)}
    (hrun : Runs.IsRun (Runs.StepOf step) (initial scripts) run) :
    Runs.AllStates DeadlockFree run ↔ Runs.AllSteps KeepsOpen (initial scripts) run := by
  have hinitial := consistent_initial scripts
  have hacyclic : WaitFor.Acyclic (initial scripts).WaitsFor := by
    intro x hx
    obtain ⟨y, hxy, -⟩ := Relation.TransGen.head'_iff.mp hx
    cases x with
    | application thread => exact not_waitsFor_of_running rfl y hxy
    | script script => exact not_waitsFor_of_isIdle rfl y hxy
  refine hrun.allStates_iff_allSteps (I := Consistent)
    (fun _ _ _ h _ _ hstep => h.step (steps_of_step hstep)) (fun s action t h hfree hstep => ?_)
    hinitial ((deadlockFree_iff hinitial).mpr hacyclic)
  have hsteps := steps_of_step hstep
  rw [deadlockFree_iff (h.step hsteps)]
  exact hsteps.acyclic_iff h hfree.acyclic

/-- No call starts while a script is deleted, and none that is itself in a call is called or
deleted. -/
def Quiet (s : ScriptCalls) : Action → Prop
  | .callScript _ _ _ | .wakesUp _ => s.joined? = none
  | .runScript script => ∀ callee ∈ s.callee? script, callee ≠ script ∧ (s.calls callee).isIdle = true
  | .execute _ change _ => ∀ script ∈ s.deletes change, (s.calls script).isIdle = true
  | _ => True

instance (s : ScriptCalls) (action : Action) : Decidable (s.Quiet action) :=
  match action with
  | .callScript _ _ _ | .wakesUp _ => inferInstanceAs (Decidable (s.joined? = none))
  | .runScript script =>
    inferInstanceAs (Decidable (∀ callee ∈ s.callee? script, callee ≠ script ∧
      (s.calls callee).isIdle = true))
  | .execute _ change _ =>
    inferInstanceAs (Decidable (∀ script ∈ s.deletes change, (s.calls script).isIdle = true))
  | .lock _ _ | .locked _ | .unlock _ | .joined _ | .publish _ _ _ _ _ | .thread _ _ | .callLocked _
  | .returns _ => isTrue trivial

omit [ScriptNames] in
/-- One who is not in a call calls up to himself only. -/
theorem eq_of_callsUpTo {script last : Nat} (hidle : (s.calls script).isIdle = true)
    (h : s.CallsUpTo script last) : last = script := by
  rcases h.cases_head with rfl | ⟨callee, hawaits, -⟩
  · rfl
  · exact absurd (.awaiting hawaits) (not_waitsFor_of_isIdle hidle (.script callee))

omit [ScriptNames] in
theorem keepsOpen_of_quiet (s : ScriptCalls) (action : Action) (h : s.Quiet action) :
    s.KeepsOpen action := by
  have hstarts : s.joined? = none → ∀ script joined, s.joined? = some joined →
      ¬ s.CallsUpTo joined script := by
    intro hnone script joined hjoined
    cases hnone.symm.trans hjoined
  cases action with
  | callScript script name payload => exact hstarts h script
  | wakesUp script => exact hstarts h script
  | runScript script =>
      intro callee hcallee hup
      obtain ⟨hother, hidle⟩ := h callee hcallee
      exact hother (eq_of_callsUpTo hidle hup).symm
  | execute thread change fromStartup =>
      intro script hdeletes last hup
      have hidle := h script hdeletes
      rw [eq_of_callsUpTo hidle hup]
      cases hcall : s.calls script with
      | locking name payload =>
          rw [hcall] at hidle
          cases hidle
      | _ => rfl
  | _ => trivial

/-- `"b.js"` -/
def otherName : ByteString := [0x62, 0x2E, 0x6A, 0x73]

/-- The worker thread executes requests about scripts. -/
def executeAll (changes : List ScriptRequest) : List Action :=
  [.lock .worker false, .locked .worker] ++ changes.map (.execute .worker · false)

/-- The thread of a script starts it and waits for something to do. -/
def start (script : Nat) : List Action :=
  [.thread script (.initialised (.returns none) 0), .thread script .test, .thread script (.poll false)]

/-- A script calls another, and is deleted when it has got the answer. -/
def callAndDelete : List Action :=
  executeAll [.addScript nameOfScript [], .addScript otherName []] ++ [.unlock .worker] ++
    start 0 ++ start 1 ++
    [.lock .worker true, .locked .worker, .publish .worker 0 [0x74] [] .no, .unlock .worker,
      .thread 0 (.wake false), .callScript 0 otherName [], .callLocked 0, .runScript 0,
      .thread 1 (.wake false), .thread 1 (.taskEnds (.returns none []) 0), .returns 0,
      .thread 0 (.taskEnds (.returns none []) 0)] ++
    executeAll [.deleteScript nameOfScript] ++ [.thread 0 .test, .joined .worker, .unlock .worker]

omit [ScriptNames] in
theorem deadlockFree_callAndDelete :
    (Runs.runOf (@step .standard) (initial 0) callAndDelete).length = 29 ∧
      Runs.AllStates DeadlockFree (Runs.runOf (@step .standard) (initial 0) callAndDelete) := by
  refine ⟨by decide +kernel, (@deadlockFree_iff_keepsOpen .standard _ _
    (Runs.isRun_runOf (@step .standard) _ _)).mpr ?_⟩
  have hquiet : Runs.AllSteps Quiet (initial 0)
      (Runs.runOf (@step .standard) (initial 0) callAndDelete) := by decide +kernel
  exact hquiet.mono keepsOpen_of_quiet

omit [ScriptNames] in
/-- A script calls another while the worker thread has the lock, which then deletes it. -/
theorem not_deadlockFree_callDuringDelete :
    ∃ run, Runs.IsRun (Runs.StepOf (@step .standard)) (initial 0) run ∧
      ¬ Runs.AllStates DeadlockFree run := by
  refine ⟨_, Runs.isRun_runOf (@step .standard) _ (executeAll [.addScript nameOfScript []] ++
    [.callScript 0 otherName [], .execute .worker (.deleteScript nameOfScript) false]), fun h => ?_⟩
  have hjoins : Runs.AllStates (fun s : ScriptCalls =>
      s.threads .worker = .joining (.deleteScript nameOfScript) false 0 →
        (s.calls 0).isLocking = false) _ := fun x hx => (h x hx).joins _ _ _ _
  revert hjoins
  decide +kernel

end ScriptCalls

end NioevMqtt
