-- SUMMARY: The two processes of a compilation: over every run the broker lives, and answers the task once and truly, exactly as long as it can remove the temporary directory and the process that was to become the compiler does nothing after it has failed to.
import NioevMqtt.Scripting.NativeLibraries

/-!
# Compilation

`handleTask` forks, and both processes go on at the same place of the same function. The new
one has a `clangPid` of zero and becomes the compiler. Where it cannot, it goes on in the
function as well, with what it takes for the process it has forked. A process whose
`std::filesystem::remove_all` throws is terminated: it is called by a destructor.
-/

namespace NioevMqtt

open Runs

/-- Where a process is: a call it is to make. -/
inductive CompilePoint where
  | mkdtemp
  | mkdir
  | fork
  | execvp
  | waitpid
  /-- The destructor of `deleteTempDir`. -/
  | removeAll
  /-- The destructor of `finishLoading`. -/
  | finishLoading
  | returned
deriving DecidableEq

/-- `handleTask` in one process, with what the process has in its own memory. -/
structure HandleTask where
  point : CompilePoint := .mkdtemp
  clangPid : Nat := 0
  /-- The calls of `statusOutput`. -/
  outputs : List CompileExit := []
  /-- The name of the library is in `mCurrentlyLoading`. -/
  loading : Bool := true

namespace HandleTask

/-- `statusOutput` is called, and the destructors from `point` on remain. -/
def output (p : HandleTask) (exit : CompileExit) (point : CompilePoint) : HandleTask :=
  { p with point, outputs := p.outputs ++ [exit] }

end HandleTask

/-- The process that was forked. -/
inductive ForkedProcess where
  | none
  | running (task : HandleTask)
  | compiler
  /-- It has ended, and its status can be waited for. -/
  | exited (success : Bool)
  | reaped (success : Bool)

inductive CompileActor where
  | broker
  | forked
deriving DecidableEq

structure Compilation where
  /-- The broker, as long as it lives. -/
  broker : Option HandleTask := some {}
  forked : ForkedProcess := .none
  /-- The temporary directory. -/
  tempDir : Bool := false

namespace Compilation

/-- The process that `fork` returns to the broker. -/
def forkedPid : Nat := 1

def put (s : Compilation) (p : HandleTask) : CompileActor → Compilation
  | .broker => { s with broker := some p }
  | .forked => { s with forked := .running p }

/-- An exception leaves a destructor, and the process is terminated. -/
def terminate (s : Compilation) : CompileActor → Compilation
  | .broker => { s with broker := none }
  | .forked => { s with forked := .exited false }

/-- The process of `pid` is killed. Zero are all processes of the group. -/
def kill (s : Compilation) (pid : Nat) : Compilation :=
  let forked : ForkedProcess :=
    match s.forked with
    | .running _ | .compiler => .exited false
    | ended => ended
  if pid = 0 then { s with broker := none, forked } else { s with forked }

def isAlive (s : Compilation) : CompileActor → Bool
  | .broker => s.broker.isSome
  | .forked =>
    match s.forked with
    | .running _ => true
    | _ => false

/-- The next call of a process, which returns or fails. -/
def perform (s : Compilation) (actor : CompileActor) (p : HandleTask) (ok : Bool) :
    Option Compilation :=
  match p.point, ok with
  | .mkdtemp, false => some (s.put (p.output .mkdtempFailed .finishLoading) actor)
  | .mkdtemp, true => some { s.put { p with point := .mkdir } actor with tempDir := true }
  -- That the directory exists is no failure.
  | .mkdir, false => some (s.put (p.output .mkdirFailed .removeAll) actor)
  | .mkdir, true => some (s.put { p with point := .fork } actor)
  | .fork, false => some (s.put (p.output .forkFailed .removeAll) actor)
  | .fork, true =>
    some { s.put { p with point := .waitpid, clangPid := forkedPid } actor with
      forked := .running { p with point := .execvp, clangPid := 0 } }
  | .execvp, false => some (s.put { p with point := .waitpid } actor)
  | .execvp, true =>
    match actor with
    | .broker => some { s with broker := none }
    | .forked => some { s with forked := .compiler }
  | .waitpid, false =>
    let s := s.kill p.clangPid
    if s.isAlive actor then some (s.put (p.output .waitpidFailed .removeAll) actor) else some s
  -- The process that was forked has forked none to wait for.
  | .waitpid, true =>
    match actor, s.forked with
    | .broker, .exited success =>
      some { s.put (p.output (if success then .success else .compilationFailed) .removeAll) actor with
        forked := .reaped success }
    | _, _ => none
  | .removeAll, false => some (s.terminate actor)
  | .removeAll, true =>
    some { s.put { p with point := .finishLoading } actor with tempDir := false }
  | .finishLoading, _ => some (s.put { p with point := .returned, loading := false } actor)
  | .returned, _ => none

inductive Event where
  | broker (ok : Bool)
  | forked (ok : Bool)
  /-- The compiler ends. -/
  | compiler (success : Bool)

def step (s : Compilation) : Event → Option Compilation
  | .broker ok => s.broker.bind fun p => s.perform .broker p ok
  | .forked ok =>
    match s.forked with
    | .running p => s.perform .forked p ok
    | _ => none
  | .compiler success =>
    match s.forked with
    | .compiler => some { s with forked := .exited success }
    | _ => none

def initial : Compilation := {}

/-! ## The property -/

/-- The broker lives. Where it has returned it has answered once, with success only if the
compiler has ended so, and nothing is left of the task. -/
def Answers (s : Compilation) : Prop :=
  ∃ p, s.broker = some p ∧ (p.point = .returned →
    p.loading = false ∧ s.tempDir = false ∧
      ∃ exit, p.outputs = [exit] ∧ (exit = .success → s.forked = .reaped true))

/-- Where it has not become the compiler, the forked process does nothing; and the broker can
remove the directory. -/
def StopsAndRemoves (s : Compilation) : Event → Prop
  | .broker ok => ok = false → ∀ p, s.broker = some p → p.point ≠ .removeAll
  | .forked _ => ∀ p, s.forked = .running p → p.point = .execvp
  | .compiler _ => True

/-! ## The states of a run -/

/-- The process that was forked, while the broker waits for it. -/
inductive Waited : ForkedProcess → Prop where
  | execs : Waited (.running { point := .execvp })
  | goesOn : Waited (.running { point := .waitpid })
  | compiles : Waited .compiler
  | exited (success : Bool) : Waited (.exited success)

/-- The process that was forked, after the broker has waited, or has not forked. -/
inductive Left : ForkedProcess → Prop where
  | none : Left .none
  | exited (success : Bool) : Left (.exited success)
  | reaped (success : Bool) : Left (.reaped success)

/-- An answer that success is given by the compiler. -/
def Truly (exit : CompileExit) (forked : ForkedProcess) : Prop :=
  exit = .success → forked = .reaped true

/-- What a state looks like as long as the forked process stops in time. -/
inductive Stage : Compilation → Prop where
  | creates : Stage {}
  | prepares {point} (hpoint : point = .mkdir ∨ point = .fork) :
      Stage { broker := some { point }, tempDir := true }
  | waits {forked} (hforked : Waited forked) :
      Stage { broker := some { point := .waitpid, clangPid := forkedPid }, forked, tempDir := true }
  | removes {clangPid exit forked} (hforked : Left forked) (htruly : Truly exit forked) :
      Stage { broker := some { point := .removeAll, clangPid, outputs := [exit] }, forked,
              tempDir := true }
  | finishes {clangPid exit forked} (hforked : Left forked) (htruly : Truly exit forked) :
      Stage { broker := some { point := .finishLoading, clangPid, outputs := [exit] }, forked }
  | returned {clangPid exit forked} (hforked : Left forked) (htruly : Truly exit forked) :
      Stage { broker := some { point := .returned, clangPid, outputs := [exit], loading := false },
              forked }

variable {s t : Compilation} {event : Event}

theorem Stage.answers (h : Stage s) : s.Answers := by
  cases h with
  | prepares hpoint =>
      refine ⟨_, rfl, fun hreturned => ?_⟩
      rcases hpoint with rfl | rfl
      · cases hreturned
      · cases hreturned
  | returned hforked htruly => exact ⟨_, rfl, fun _ => ⟨rfl, rfl, _, rfl, htruly⟩⟩
  | _ => exact ⟨_, rfl, fun hreturned => by cases hreturned⟩

/-- Of the broker's other calls none goes wrong. -/
theorem Stage.broker (h : Stage s) {ok : Bool} (hremoves : s.StopsAndRemoves (.broker ok))
    (hstep : s.step (.broker ok) = some t) : Stage t := by
  cases h with
  | creates =>
      cases ok with
      | false =>
          cases hstep
          exact .finishes .none fun hexit => by cases hexit
      | true =>
          cases hstep
          exact .prepares (.inl rfl)
  | prepares hpoint =>
      rcases hpoint with rfl | rfl
      · cases ok with
        | false =>
            cases hstep
            exact .removes .none fun hexit => by cases hexit
        | true =>
            cases hstep
            exact .prepares (.inr rfl)
      · cases ok with
        | false =>
            cases hstep
            exact .removes .none fun hexit => by cases hexit
        | true =>
            cases hstep
            exact .waits .execs
  | waits hforked =>
      cases ok with
      | false =>
          -- The process that was forked is killed, if it has not ended.
          have hkilled : ∃ success, t =
              { broker := some { point := .removeAll, clangPid := forkedPid, outputs := [.waitpidFailed] }
                forked := .exited success
                tempDir := true } := by
            cases hforked with
            | exited success => exact ⟨success, (Option.some_inj.mp hstep).symm⟩
            | _ => exact ⟨false, (Option.some_inj.mp hstep).symm⟩
          obtain ⟨success, rfl⟩ := hkilled
          exact .removes (.exited success) fun hexit => by cases hexit
      | true =>
          cases hforked with
          | exited success =>
              cases hstep
              refine .removes (.reaped success) fun hexit => ?_
              cases success with
              | true => rfl
              | false => cases hexit
          | _ => cases hstep
  | removes hforked htruly =>
      cases ok with
      | false => exact absurd rfl (hremoves rfl _ rfl)
      | true =>
          cases hstep
          exact .finishes hforked htruly
  | finishes hforked htruly =>
      cases hstep
      exact .returned hforked htruly
  | returned _ _ => cases hstep

/-- Where the directory cannot be removed the broker ends. -/
theorem not_answers_of_throws {p : HandleTask} (hbroker : s.broker = some p)
    (hpoint : p.point = .removeAll) (hstep : s.step (.broker false) = some t) : ¬ t.Answers := by
  simp only [Compilation.step, hbroker, Option.bind_some, perform, hpoint] at hstep
  cases hstep
  rintro ⟨_, hnone, -⟩
  cases hnone

theorem Stage.compiler (h : Stage s) {success : Bool} (hstep : s.step (.compiler success) = some t) :
    Stage t := by
  cases h with
  | waits hforked =>
      cases hforked with
      | compiles =>
          cases hstep
          exact .waits (.exited success)
      | _ => cases hstep
  | creates => cases hstep
  | prepares _ => cases hstep
  | removes hforked _ => cases hforked <;> cases hstep
  | finishes hforked _ => cases hforked <;> cases hstep
  | returned hforked _ => cases hforked <;> cases hstep

theorem running_of_step {ok : Bool} (hstep : s.step (.forked ok) = some t) :
    ∃ p, s.forked = .running p := by
  cases hforked : s.forked with
  | running p => exact ⟨p, rfl⟩
  | _ => simp [step, hforked] at hstep

/-- Only while the broker waits does the process that was forked make calls. -/
theorem Stage.waits_of_running (h : Stage s) {p : HandleTask} (hrunning : s.forked = .running p) :
    s.broker = some { point := .waitpid, clangPid := forkedPid } ∧ s.tempDir = true ∧
      (p = { point := .execvp } ∨ p = { point := .waitpid }) := by
  cases h with
  | waits hforked =>
      refine ⟨rfl, rfl, ?_⟩
      cases hrunning
      cases hforked with
      | execs => exact .inl rfl
      | goesOn => exact .inr rfl
  | creates => cases hrunning
  | prepares _ => cases hrunning
  | removes hforked _ =>
      cases hrunning
      cases hforked
  | finishes hforked _ =>
      cases hrunning
      cases hforked
  | returned hforked _ =>
      cases hrunning
      cases hforked

/-- Where the process that was forked cannot become the compiler it stays in the function. -/
theorem Stage.execvp (h : Stage s) {ok : Bool} (hrunning : s.forked = .running { point := .execvp })
    (hstep : s.step (.forked ok) = some t) : Stage t := by
  obtain ⟨hbroker, hdir, -⟩ := h.waits_of_running hrunning
  obtain ⟨broker, forked, tempDir⟩ := s
  cases hbroker
  cases hdir
  cases hrunning
  cases ok with
  | false =>
      cases hstep
      exact .waits .goesOn
  | true =>
      cases hstep
      exact .waits .compiles

/-- What it does there is to wait for a process of its own, and to kill its group as it has none. -/
theorem not_answers_of_goesOn {ok : Bool} (hrunning : s.forked = .running { point := .waitpid })
    (hstep : s.step (.forked ok) = some t) : ¬ t.Answers := by
  obtain ⟨broker, forked, tempDir⟩ := s
  cases hrunning
  cases ok with
  | false =>
      cases hstep
      rintro ⟨p, hbroker, -⟩
      cases hbroker
  | true => cases hstep

/-- The property is kept by the steps that meet the condition, and by no others. -/
theorem Stage.answers_iff (h : Stage s) (hstep : s.step event = some t) :
    t.Answers ↔ s.StopsAndRemoves event := by
  cases event with
  | broker ok =>
      refine ⟨fun hanswers => ?_, fun hremoves => (h.broker hremoves hstep).answers⟩
      rintro rfl p hbroker hpoint
      exact not_answers_of_throws hbroker hpoint hstep hanswers
  | compiler success => exact iff_of_true (h.compiler hstep).answers trivial
  | forked ok =>
      obtain ⟨p, hforked⟩ := running_of_step hstep
      obtain ⟨-, -, rfl | rfl⟩ := h.waits_of_running hforked
      · refine iff_of_true (h.execvp hforked hstep).answers fun p hp => ?_
        rw [hforked] at hp
        cases hp
        rfl
      · refine iff_of_false (not_answers_of_goesOn hforked hstep) fun hstops => ?_
        cases hstops _ hforked

theorem Stage.step (h : Stage s) (hstops : s.StopsAndRemoves event)
    (hstep : s.step event = some t) : Stage t := by
  cases event with
  | broker ok => exact h.broker hstops hstep
  | compiler success => exact h.compiler hstep
  | forked ok =>
      obtain ⟨p, hforked⟩ := running_of_step hstep
      have hpoint : p.point = .execvp := hstops p hforked
      obtain ⟨-, -, rfl | rfl⟩ := h.waits_of_running hforked
      · exact h.execvp hforked hstep
      · cases hpoint

/-- Over every run, in whatever order the processes go on and whichever of their calls fail: the
broker lives and gives one answer, a true one, exactly as long as it can remove the directory
and the forked process stops in time. -/
theorem answersTask_iff_stopsAndRemoves {run : List (Event × Compilation)}
    (hrun : IsRun (StepOf step) initial run) :
    AllStates Answers run ↔ AllSteps StopsAndRemoves initial run :=
  hrun.allStates_iff_allSteps (fun _ _ _ h _ hstops hstep => h.step hstops hstep)
    (fun _ _ _ h _ hstep => h.answers_iff hstep) Stage.creates Stage.creates.answers

/-- The compiler succeeds. In another run there is no compiler, and in a third one the directory
cannot be removed. -/
theorem answersTask_noCompiler :
    let compiles := runOf step initial
      [.broker true, .broker true, .broker true, .forked true, .compiler true, .broker true,
        .broker true, .broker true]
    let fails := runOf step initial
      [.broker true, .broker true, .broker true, .forked false, .forked false]
    let throws := runOf step initial [.broker true, .broker false, .broker false]
    AllStates Answers compiles ∧ ¬ AllStates Answers fails ∧ ¬ AllStates Answers throws := by
  intro compiles fails throws
  refine ⟨?_, ?_, ?_⟩
  · refine (answersTask_iff_stopsAndRemoves (isRun_runOf step initial _)).mpr ?_
    refine ⟨?_, ?_, ?_, fun p hp => ?_, trivial, ?_, ?_, ?_, trivial⟩
    · rintro ⟨⟩
    · rintro ⟨⟩
    · rintro ⟨⟩
    · cases hp
      rfl
    · rintro ⟨⟩
    · rintro ⟨⟩
    · rintro ⟨⟩
  · rw [answersTask_iff_stopsAndRemoves (isRun_runOf step initial _)]
    rintro ⟨-, -, -, -, hstops, -⟩
    cases hstops { point := .waitpid } rfl
  · rw [answersTask_iff_stopsAndRemoves (isRun_runOf step initial _)]
    rintro ⟨-, -, hremoves, -⟩
    exact hremoves rfl _ rfl rfl

end Compilation

end NioevMqtt
