-- SUMMARY: The thread of a script: over every run no task is answered twice, and none that was accepted is left when the thread has ended, exactly as long as the thread ends with an empty queue and accepts nothing afterwards.
import NioevMqtt.Scripting.ScriptStore

/-!
# The thread of a script

`ScriptContainerJS`: other threads queue tasks, its own thread starts the script, and
then executes tasks and timeouts. What happens under the mutex of the script is one
step. What the JS code does is up to the actions.
-/

namespace NioevMqtt

/-- `ScriptInputArgs::params`. -/
inductive ScriptInput where
  | publish (topic : ByteString) (payload : List UInt8) (retained : Retained)
  | call (payload : ByteString)
deriving DecidableEq, Repr

inductive ScriptRunType where
  | sync
  | async
deriving DecidableEq, Repr

inductive SyncAction where
  | continue
  | abortPublish
deriving DecidableEq, Repr

/-- The messages given to `status.error`. -/
inductive TaskError where
  /-- `"Init failed: "` and the message. -/
  | initFailed (message : ByteString)
  /-- `"function onPublish not defined!"` -/
  | onPublishNotDefined
  /-- `"function onCall not defined!"` -/
  | onCallNotDefined
  | exception (message : ByteString)
  /-- `"syncAction must be 'continue' or 'abortPublish'"` -/
  | syncAction
deriving DecidableEq, Repr

/-- A call of a member of `ScriptStatusOutput`. -/
inductive StatusCall where
  | success (value : ByteString)
  | error (error : TaskError)
  | syncAction (action : SyncAction)
deriving DecidableEq, Repr

/-- `status.success` and `status.error` answer a task. -/
def StatusCall.isAnswer : StatusCall → Bool
  | .success _ | .error _ => true
  | .syncAction _ => false

/-- `"continue"` -/
def continueName : ByteString := [0x63, 0x6F, 0x6E, 0x74, 0x69, 0x6E, 0x75, 0x65]

/-- `"abortPublish"` -/
def abortPublishName : ByteString :=
  [0x61, 0x62, 0x6F, 0x72, 0x74, 0x50, 0x75, 0x62, 0x6C, 0x69, 0x73, 0x68]

/-- `"sync"` -/
def syncName : ByteString := [0x73, 0x79, 0x6E, 0x63]

/-- `"async"` -/
def asyncName : ByteString := [0x61, 0x73, 0x79, 0x6E, 0x63]

/-- What comes of the code of a script: an exception, or a value with its `runType`. -/
inductive InitResult where
  | throws (message : ByteString)
  | returns (runType : Option ByteString)
deriving DecidableEq, Repr

/-- What comes of the function that a task calls. -/
inductive RunResult where
  | notDefined
  | throws (message : ByteString)
  | returns (syncAction : Option ByteString) (value : ByteString)
deriving DecidableEq, Repr

/-- `"Init return runType should be 'sync' or 'async', not '"` and the run type. -/
def badRunType (runType : ByteString) : ByteString :=
  [0x49, 0x6E, 0x69, 0x74, 0x20, 0x72, 0x65, 0x74, 0x75, 0x72, 0x6E, 0x20, 0x72, 0x75, 0x6E, 0x54, 0x79,
    0x70, 0x65, 0x20, 0x73, 0x68, 0x6F, 0x75, 0x6C, 0x64, 0x20, 0x62, 0x65, 0x20, 0x27, 0x73, 0x79, 0x6E,
    0x63, 0x27, 0x20, 0x6F, 0x72, 0x20, 0x27, 0x61, 0x73, 0x79, 0x6E, 0x63, 0x27, 0x2C, 0x20, 0x6E, 0x6F,
    0x74, 0x20, 0x27] ++ runType ++ [0x27]

/-- The run type of a script that has been started, or the error message. -/
def InitResult.runType : InitResult → Except ByteString ScriptRunType
  | .throws message => .error message
  | .returns none => .ok .async
  | .returns (some runType) =>
    if runType = syncName then .ok .sync
    else if runType = asyncName then .ok .async
    else .error (badRunType runType)

/-- `performRun`. -/
def performRun (runType : ScriptRunType) (input : ScriptInput) : RunResult → List StatusCall
  | .notDefined =>
    match input with
    | .publish _ _ _ => [.error .onPublishNotDefined]
    | .call _ => [.error .onCallNotDefined]
  | .throws message => [.error (.exception message)]
  | .returns syncAction value =>
    match runType, syncAction with
    | .async, _ => [.success value]
    | .sync, none => [.syncAction .continue, .success value]
    | .sync, some syncAction =>
      if syncAction = continueName then [.syncAction .continue, .success value]
      else if syncAction = abortPublishName then [.syncAction .abortPublish, .success value]
      else [.error .syncAction]

/-- A task is answered once, whatever its function does. -/
theorem answers_performRun (runType : ScriptRunType) (input : ScriptInput) (result : RunResult) :
    ((performRun runType input result).filter StatusCall.isAnswer).length = 1 := by
  cases result with
  | notDefined =>
      cases input with
      | publish topic payload retained => rfl
      | call payload => rfl
  | throws message => rfl
  | returns syncAction value =>
      cases runType with
      | async => rfl
      | sync =>
          cases syncAction with
          | none => rfl
          | some syncAction =>
              simp only [performRun]
              split
              · rfl
              · split
                · rfl
                · rfl

/-- A task of the queue, with the number of its call of `run`. -/
structure ScriptTask where
  number : Nat
  input : ScriptInput
deriving DecidableEq, Repr

/-- Where the thread is. -/
inductive ScriptPhase where
  | initialising
  /-- In the error output of the start. -/
  | initFailing
  /-- At the head of the run loop. -/
  | loop
  /-- About to look into the queue. -/
  | entering
  /-- In a wait, or back from a timeout. -/
  | waiting
  | inTimeout
  | performing (task : ScriptTask)
  | ended
deriving DecidableEq, Repr

/-- The task the thread is at work on. -/
def ScriptPhase.task? : ScriptPhase → Option ScriptTask
  | .performing task => some task
  | _ => none

structure ScriptContainerJS where
  mState : ScriptState := .running
  mInitFailureMessage : ByteString := []
  mScriptInitReturn : Option ScriptRunType := none
  mTasks : List ScriptTask := []
  /-- How many timeouts are set. -/
  mTimeouts : Nat := 0
  phase : ScriptPhase := .initialising
  nextTask : Nat := 0
  /-- The calls of the status outputs. These and the accepted tasks are remembered here
  only. -/
  statusCalls : List (Nat × StatusCall) := []
  accepted : List Nat := []
deriving DecidableEq, Repr

namespace ScriptContainerJS

/-! ## Steps -/

def run (s : ScriptContainerJS) (input : ScriptInput) : ScriptContainerJS :=
  if s.mInitFailureMessage ≠ [] then
    { s with
      nextTask := s.nextTask + 1
      statusCalls := s.statusCalls ++ [(s.nextTask, .error (.initFailed s.mInitFailureMessage))] }
  else
    { s with
      nextTask := s.nextTask + 1
      accepted := s.accepted ++ [s.nextTask]
      mTasks := s.mTasks ++ [⟨s.nextTask, input⟩] }

/-- The inner loop of the thread, up to where it gives the mutex up. -/
def poll (s : ScriptContainerJS) (timeoutDue : Bool) : ScriptContainerJS :=
  match s.mTasks with
  | task :: mTasks => { s with mTasks := mTasks, phase := .performing task }
  | [] =>
    if s.mState = .deactivated then { s with phase := .waiting }
    else if 0 < s.mTimeouts ∧ timeoutDue then
      { s with mTimeouts := s.mTimeouts - 1, phase := .inTimeout }
    else { s with phase := .waiting }

def logStatus (s : ScriptContainerJS) (task : ScriptTask) (calls : List StatusCall) :
    ScriptContainerJS :=
  { s with statusCalls := s.statusCalls ++ calls.map (task.number, ·) }

def activate (s : ScriptContainerJS) : ScriptContainerJS :=
  if s.mState = .deactivated then { s with mState := .running } else s

def deactivate (s : ScriptContainerJS) : ScriptContainerJS :=
  if s.mState = .running then { s with mState := .deactivated } else s

/-- As far as the wait for the thread. -/
def forceQuit (s : ScriptContainerJS) : ScriptContainerJS := { s with mState := .stopping }

inductive Action where
  | run (input : ScriptInput)
  | initialised (result : InitResult) (timeouts : Nat)
  | initFailed
  | test
  | poll (timeoutDue : Bool)
  | wake (timeoutDue : Bool)
  | timeoutEnds (throws : Bool) (timeouts : Nat)
  | taskEnds (result : RunResult) (timeouts : Nat)
  | activate
  | deactivate
  | forceQuit

/-- What the thread of a script does itself. -/
def Action.ofThread : Action → Bool
  | .run _ | .activate | .deactivate | .forceQuit => false
  | _ => true

/-- The code of the script may set and clear timeouts: `timeouts` are left afterwards. -/
def step (s : ScriptContainerJS) : Action → Option ScriptContainerJS
  | .run input => some (s.run input)
  | .initialised result timeouts =>
    if s.phase = .initialising then
      match result.runType with
      | .error message =>
        some { s with
          mTimeouts := timeouts
          mInitFailureMessage := message
          phase := .initFailing }
      | .ok runType =>
        some { s with
          mTimeouts := timeouts
          mScriptInitReturn := some runType
          phase := .loop }
    else none
  | .initFailed =>
    if s.phase = .initFailing then some { s with mState := .initFailed, phase := .ended } else none
  | .test =>
    if s.phase = .loop then
      if s.mState = .stopping then some { s with phase := .ended }
      else some { s with phase := .entering }
    else none
  | .poll timeoutDue => if s.phase = .entering then some (s.poll timeoutDue) else none
  | .wake timeoutDue =>
    if s.phase = .waiting then
      if s.mState = .stopping then some { s with phase := .ended }
      else some (s.poll timeoutDue)
    else none
  | .timeoutEnds throws timeouts =>
    if s.phase = .inTimeout then
      -- An exception is logged, and the function of the thread returns.
      if throws then some { s with mTimeouts := timeouts, phase := .ended }
      else some { s with mTimeouts := timeouts, phase := .waiting }
    else none
  | .taskEnds result timeouts =>
    match s.phase with
    | .performing task =>
      -- The start has set the run type.
      some (logStatus { s with mTimeouts := timeouts, phase := .loop } task
        (performRun (s.mScriptInitReturn.getD .async) task.input result))
    | _ => none
  | .activate => some s.activate
  | .deactivate => some s.deactivate
  | .forceQuit => some s.forceQuit

def initial : ScriptContainerJS := {}

/-! ## What is claimed -/

/-- How often the task of a call of `run` has been answered. -/
def answers (s : ScriptContainerJS) (number : Nat) : Nat :=
  s.statusCalls.countP fun call => call.1 = number ∧ call.2.isAnswer

structure AnswersAll (s : ScriptContainerJS) : Prop where
  once : ∀ number, s.answers number ≤ 1
  all : s.phase = .ended → ∀ number ∈ s.accepted, s.answers number ≠ 0

/-- The thread comes to its end by the step. -/
def Ends (s : ScriptContainerJS) : Action → Prop
  | .initFailed | .timeoutEnds true _ => True
  | .test | .wake _ => s.mState = .stopping
  | _ => False

/-- The thread ends with an empty queue, and no task is accepted when it has ended. -/
def Disposes (s : ScriptContainerJS) : Action → Prop
  | .run _ => s.phase = .ended → s.mInitFailureMessage ≠ []
  | action => s.Ends action → s.mTasks = []

/-! ## What a step does to the tasks -/

variable {s t : ScriptContainerJS} {action : Action}

/-- The cases of a step, as far as the tasks are concerned. -/
inductive Effect (s : ScriptContainerJS) : Action → ScriptContainerJS → Prop
  | refuses {input} (hfailed : s.mInitFailureMessage ≠ []) :
      Effect s (.run input) { s with
        nextTask := s.nextTask + 1
        statusCalls := s.statusCalls ++ [(s.nextTask, .error (.initFailed s.mInitFailureMessage))] }
  | accepts {input} (hstarted : s.mInitFailureMessage = []) :
      Effect s (.run input) { s with
        nextTask := s.nextTask + 1
        accepted := s.accepted ++ [s.nextTask]
        mTasks := s.mTasks ++ [⟨s.nextTask, input⟩] }
  | moves {action : Action} {t : ScriptContainerJS} (haction : ∀ input, action ≠ .run input)
      (htasks : t.mTasks = s.mTasks) (htask : t.phase.task? = s.phase.task?)
      (hcalls : t.statusCalls = s.statusCalls) (hnext : t.nextTask = s.nextTask)
      (haccepted : t.accepted = s.accepted)
      (hended : t.phase = .ended ↔ s.Ends action ∨ s.phase = .ended) : Effect s action t
  | takes {action : Action} {t : ScriptContainerJS} {task : ScriptTask}
      (haction : ∀ input, action ≠ .run input) (hends : ¬ s.Ends action)
      (htasks : s.mTasks = task :: t.mTasks) (hphase : s.phase.task? = none)
      (htask : t.phase = .performing task) (hcalls : t.statusCalls = s.statusCalls)
      (hnext : t.nextTask = s.nextTask) (haccepted : t.accepted = s.accepted) : Effect s action t
  | answers {result timeouts task runType} (hphase : s.phase = .performing task) :
      Effect s (.taskEnds result timeouts)
        (logStatus { s with mTimeouts := timeouts, phase := .loop } task
          (performRun runType task.input result))

/-- The thread looks for something to do. -/
theorem effect_poll {timeoutDue : Bool} (haction : ∀ input, action ≠ .run input)
    (hends : ¬ s.Ends action) (htask : s.phase.task? = none) (hended : s.phase ≠ .ended) :
    s.Effect action (s.poll timeoutDue) := by
  have hmoves : ∀ {phase : ScriptPhase} {mTimeouts : Nat}, phase.task? = none → phase ≠ .ended →
      s.Effect action { s with mTimeouts := mTimeouts, phase := phase } := fun hnone hphase =>
    .moves haction rfl (hnone.trans htask.symm) rfl rfl rfl
      (iff_of_false hphase (not_or.mpr ⟨hends, hended⟩))
  unfold poll
  split
  · next task mTasks htasks => exact .takes haction hends htasks htask rfl rfl rfl rfl
  · split
    · exact hmoves rfl (by rintro ⟨⟩)
    · split
      · exact hmoves rfl (by rintro ⟨⟩)
      · exact hmoves rfl (by rintro ⟨⟩)

theorem effect_of_step (hstep : s.step action = some t) : s.Effect action t := by
  cases action with
  | run input =>
      obtain rfl := Option.some.inj hstep
      unfold run
      split
      · next hfailed => exact .refuses hfailed
      · next hstarted => exact .accepts (not_not.mp hstarted)
  | initialised result timeouts =>
      obtain ⟨hphase, hstep⟩ := Option.ite_none_right_eq_some.mp hstep
      have htask : s.phase.task? = none := by
        rw [hphase]
        rfl
      have hended : ¬ (s.Ends (.initialised result timeouts) ∨ s.phase = .ended) :=
        not_or.mpr ⟨id, by rw [hphase]; rintro ⟨⟩⟩
      split at hstep
      · cases hstep
        exact .moves (by rintro _ ⟨⟩) rfl htask.symm rfl rfl rfl (iff_of_false (by rintro ⟨⟩) hended)
      · cases hstep
        exact .moves (by rintro _ ⟨⟩) rfl htask.symm rfl rfl rfl (iff_of_false (by rintro ⟨⟩) hended)
  | initFailed =>
      obtain ⟨hphase, hstep⟩ := Option.ite_none_right_eq_some.mp hstep
      cases hstep
      exact .moves (by rintro _ ⟨⟩) rfl (by rw [hphase]; rfl) rfl rfl rfl
        (iff_of_true rfl (.inl trivial))
  | test =>
      obtain ⟨hphase, hstep⟩ := Option.ite_none_right_eq_some.mp hstep
      split at hstep
      · next hstopping =>
          cases hstep
          exact .moves (by rintro _ ⟨⟩) rfl (by rw [hphase]; rfl) rfl rfl rfl
            (iff_of_true rfl (.inl hstopping))
      · next hgoes =>
          cases hstep
          refine .moves (by rintro _ ⟨⟩) rfl (by rw [hphase]; rfl) rfl rfl rfl
            (iff_of_false (by rintro ⟨⟩) (not_or.mpr ⟨hgoes, ?_⟩))
          rw [hphase]
          rintro ⟨⟩
  | poll timeoutDue =>
      obtain ⟨hphase, hstep⟩ := Option.ite_none_right_eq_some.mp hstep
      cases hstep
      exact effect_poll (by rintro _ ⟨⟩) id (by rw [hphase]; rfl) (by rw [hphase]; rintro ⟨⟩)
  | wake timeoutDue =>
      obtain ⟨hphase, hstep⟩ := Option.ite_none_right_eq_some.mp hstep
      split at hstep
      · next hstopping =>
          cases hstep
          exact .moves (by rintro _ ⟨⟩) rfl (by rw [hphase]; rfl) rfl rfl rfl
            (iff_of_true rfl (.inl hstopping))
      · next hgoes =>
          cases hstep
          exact effect_poll (by rintro _ ⟨⟩) hgoes (by rw [hphase]; rfl) (by rw [hphase]; rintro ⟨⟩)
  | timeoutEnds throws timeouts =>
      obtain ⟨hphase, hstep⟩ := Option.ite_none_right_eq_some.mp hstep
      cases throws with
      | true =>
          cases hstep
          exact .moves (by rintro _ ⟨⟩) rfl (by rw [hphase]; rfl) rfl rfl rfl
            (iff_of_true rfl (.inl trivial))
      | false =>
          cases hstep
          refine .moves (by rintro _ ⟨⟩) rfl (by rw [hphase]; rfl) rfl rfl rfl
            (iff_of_false (by rintro ⟨⟩) (not_or.mpr ⟨id, ?_⟩))
          rw [hphase]
          rintro ⟨⟩
  | taskEnds result timeouts =>
      simp only [step] at hstep
      split at hstep
      · next task hphase =>
          cases hstep
          exact .answers hphase
      · cases hstep
  | activate =>
      have hended : s.phase = .ended ↔ s.Ends .activate ∨ s.phase = .ended :=
        (or_iff_right id).symm
      obtain rfl := Option.some.inj hstep
      unfold activate
      split
      · exact .moves (by rintro _ ⟨⟩) rfl rfl rfl rfl rfl hended
      · exact .moves (by rintro _ ⟨⟩) rfl rfl rfl rfl rfl hended
  | deactivate =>
      have hended : s.phase = .ended ↔ s.Ends .deactivate ∨ s.phase = .ended :=
        (or_iff_right id).symm
      obtain rfl := Option.some.inj hstep
      unfold deactivate
      split
      · exact .moves (by rintro _ ⟨⟩) rfl rfl rfl rfl rfl hended
      · exact .moves (by rintro _ ⟨⟩) rfl rfl rfl rfl rfl hended
  | forceQuit =>
      obtain rfl := Option.some.inj hstep
      exact .moves (by rintro _ ⟨⟩) rfl rfl rfl rfl rfl (or_iff_right id).symm

/-! ## The account of the tasks -/

/-- The tasks that have not been answered. -/
def pending (s : ScriptContainerJS) : List Nat :=
  (s.phase.task?.toList ++ s.mTasks).map ScriptTask.number

/-- Every call of `run` has been answered or is pending. -/
structure Accounted (s : ScriptContainerJS) : Prop where
  counted : ∀ number, s.answers number + s.pending.count number =
    if number < s.nextTask then 1 else 0
  accepted : ∀ number ∈ s.pending, number ∈ s.accepted
  made : ∀ number ∈ s.accepted, number < s.nextTask

theorem Accounted.congr (h : s.Accounted) (hcalls : t.statusCalls = s.statusCalls)
    (hpending : t.pending.Perm s.pending) (hnext : t.nextTask = s.nextTask)
    (haccepted : t.accepted = s.accepted) : t.Accounted where
  counted := by
    intro number
    rw [hpending.count_eq, hnext, ← h.counted number, answers, hcalls]
    rfl
  accepted := by
    intro number hnumber
    rw [haccepted]
    exact h.accepted number (hpending.mem_iff.mp hnumber)
  made := by
    rw [haccepted, hnext]
    exact h.made

theorem answers_logStatus (s : ScriptContainerJS) (task : ScriptTask) (calls : List StatusCall)
    (number : Nat) :
    (s.logStatus task calls).answers number = s.answers number +
      if task.number = number then (calls.filter StatusCall.isAnswer).length else 0 := by
  have hcalls : (calls.map (task.number, ·)).countP
      (fun call => decide (call.1 = number ∧ call.2.isAnswer = true)) =
        if task.number = number then (calls.filter StatusCall.isAnswer).length else 0 := by
    rw [List.countP_map, ← List.countP_eq_length_filter]
    split
    · next hnumber =>
        refine List.countP_congr fun call _ => ?_
        simp only [Function.comp_apply, hnumber, true_and, decide_eq_true_eq]
    · next hnumber =>
        refine List.countP_eq_zero.mpr fun call _ => ?_
        simp only [Function.comp_apply, hnumber, false_and, decide_false, Bool.false_eq_true,
          not_false_eq_true]
  unfold answers logStatus
  rw [List.countP_append, hcalls]

theorem answers_concat (s : ScriptContainerJS) (error : TaskError) (number : Nat) :
    answers { s with statusCalls := s.statusCalls ++ [(s.nextTask, .error error)] } number =
      s.answers number + if s.nextTask = number then 1 else 0 := by
  unfold answers
  rw [List.countP_append, List.countP_singleton]
  simp only [StatusCall.isAnswer, and_true, decide_eq_true_eq]

theorem answers_run (s : ScriptContainerJS) (input : ScriptInput) (number : Nat) :
    (s.run input).answers number = s.answers number +
      if s.mInitFailureMessage ≠ [] ∧ s.nextTask = number then 1 else 0 := by
  unfold run
  split
  · next hfailed =>
      rw [if_congr (and_iff_right hfailed) rfl rfl]
      exact answers_concat s (.initFailed s.mInitFailureMessage) number
  · next hstarted =>
      rw [if_neg fun h => hstarted h.1]
      rfl

/-- An answer stays. -/
theorem answers_le_of_step (hstep : s.step action = some t) (number : Nat) :
    s.answers number ≤ t.answers number := by
  cases effect_of_step hstep with
  | refuses hfailed =>
      exact (Nat.le_add_right _ _).trans
        (answers_concat s (.initFailed s.mInitFailureMessage) number).ge
  | accepts hstarted => exact le_rfl
  | moves haction htasks htask hcalls => exact (congrArg (List.countP _) hcalls).ge
  | takes haction hends htasks hphase htask hcalls => exact (congrArg (List.countP _) hcalls).ge
  | answers hphase =>
      rw [answers_logStatus]
      exact Nat.le_add_right _ _

/-- One more call of `run` is counted. -/
theorem counted_succ {n number count : Nat} (hcount : count = if number < n then 1 else 0) :
    (count + if n = number then 1 else 0) = if number < n + 1 then 1 else 0 := by
  subst hcount
  split
  · split
    · omega
    · rw [if_pos (by omega)]
  · split
    · rw [if_pos (by omega)]
    · rw [if_neg (by omega)]

theorem accounted_initial : initial.Accounted where
  counted := fun _ => rfl
  accepted := by rintro _ ⟨⟩
  made := by rintro _ ⟨⟩

theorem Accounted.step (h : s.Accounted) (hstep : s.step action = some t) : t.Accounted := by
  cases effect_of_step hstep with
  | refuses hfailed =>
      -- The new call is answered at once.
      refine ⟨fun number => ?_, h.accepted, fun number hnumber => ?_⟩
      · have hanswers := answers_concat s (.initFailed s.mInitFailureMessage) number
        refine Eq.trans ?_ (counted_succ (h.counted number))
        rw [Nat.add_right_comm, ← hanswers]
        rfl
      · exact Nat.lt_succ_of_lt (h.made number hnumber)
  | @accepts input hstarted =>
      -- The new call is pending.
      have hpending : pending { s with
          nextTask := s.nextTask + 1
          accepted := s.accepted ++ [s.nextTask]
          mTasks := s.mTasks ++ [⟨s.nextTask, input⟩] } = s.pending ++ [s.nextTask] := by
        simp only [pending, List.map_append, List.map_cons, List.map_nil, List.append_assoc]
      refine ⟨fun number => ?_, fun number hnumber => ?_, fun number hnumber => ?_⟩
      · refine Eq.trans ?_ (counted_succ (h.counted number))
        rw [hpending, List.count_append, List.count_singleton, ← Nat.add_assoc]
        simp only [beq_iff_eq]
        rfl
      · rw [hpending] at hnumber
        rcases List.mem_append.mp hnumber with hnumber | hnumber
        · exact List.mem_append_left _ (h.accepted number hnumber)
        · exact List.mem_append_right _ hnumber
      · rcases List.mem_append.mp hnumber with hnumber | hnumber
        · exact Nat.lt_succ_of_lt (h.made number hnumber)
        · exact Nat.lt_succ_of_le (List.mem_singleton.mp hnumber).le
  | moves haction htasks htask hcalls hnext haccepted hended =>
      exact h.congr hcalls (by rw [pending, pending, htask, htasks]) hnext haccepted
  | takes haction hends htasks hphase htask hcalls hnext haccepted =>
      -- The task goes from the queue to the thread, which makes no difference to the account.
      refine h.congr hcalls ?_ hnext haccepted
      rw [pending, pending, htask, hphase, htasks]
      rfl
  | @answers result timeouts task runType hphase =>
      -- The task at work is the first one pending; it is answered once.
      have hpending : s.pending = task.number :: s.mTasks.map ScriptTask.number := by
        rw [pending, hphase]
        rfl
      refine ⟨fun number => ?_, fun number hnumber => ?_, h.made⟩
      · have hcounted := h.counted number
        rw [hpending, List.count_cons] at hcounted
        simp only [beq_iff_eq] at hcounted
        refine Eq.trans ?_ hcounted
        rw [answers_logStatus, answers_performRun, Nat.add_right_comm, Nat.add_assoc]
        rfl
      · refine h.accepted number ?_
        rw [hpending]
        exact List.mem_cons_of_mem _ hnumber

/-- No task is left when the thread has ended. -/
theorem Accounted.answersAll_iff (h : s.Accounted) :
    s.AnswersAll ↔ (s.phase = .ended → s.mTasks = []) := by
  have hpending : s.phase = .ended → s.pending = s.mTasks.map ScriptTask.number := by
    intro hphase
    rw [pending, hphase]
    rfl
  constructor
  · intro hall hphase
    refine List.eq_nil_iff_forall_not_mem.mpr fun task htask => ?_
    have hmem : task.number ∈ s.pending := by
      rw [hpending hphase]
      exact List.mem_map_of_mem htask
    have hanswered := hall.all hphase _ (h.accepted _ hmem)
    have hcount := List.count_pos_iff.mpr hmem
    have hcounted := h.counted task.number
    split at hcounted
    · omega
    · omega
  · intro hempty
    refine ⟨fun number => ?_, fun hphase number hnumber => ?_⟩
    · have hcounted := h.counted number
      split at hcounted
      · omega
      · omega
    · have hcounted := h.counted number
      rw [if_pos (h.made number hnumber), hpending hphase, hempty hphase] at hcounted
      simp only [List.map_nil, List.count_nil, add_zero] at hcounted
      omega

theorem disposes_iff (haction : ∀ input, action ≠ .run input) :
    s.Disposes action ↔ (s.Ends action → s.mTasks = []) := by
  cases action with
  | run input => exact absurd rfl (haction input)
  | _ => exact Iff.rfl

/-- A step leaves no task behind exactly if it disposes of them. -/
theorem answersAll_iff_of_step (h : s.Accounted) (hall : s.AnswersAll)
    (hstep : s.step action = some t) : t.AnswersAll ↔ s.Disposes action := by
  have hempty := h.answersAll_iff.mp hall
  rw [(h.step hstep).answersAll_iff]
  cases effect_of_step hstep with
  | refuses hfailed => exact iff_of_true hempty fun _ => hfailed
  | accepts hstarted =>
      -- A thread that has ended will not come by for the new task.
      refine forall_congr' fun hphase => iff_of_false ?_ (not_not.mpr hstarted)
      exact List.append_ne_nil_of_right_ne_nil _ (List.cons_ne_nil _ _)
  | moves haction htasks htask hcalls hnext haccepted hended =>
      rw [disposes_iff haction, hended, htasks, or_imp]
      exact and_iff_left hempty
  | takes haction hends htasks hphase htask hcalls hnext haccepted =>
      rw [disposes_iff haction]
      refine iff_of_true (fun hphase => ?_) fun h => absurd h hends
      rw [htask] at hphase
      cases hphase
  | answers hphase => exact iff_of_true (by rintro ⟨⟩) (by rintro ⟨⟩)

/-! ## Over the runs -/

instance (s : ScriptContainerJS) (action : Action) : Decidable (s.Ends action) :=
  match action with
  | .initFailed | .timeoutEnds true _ => isTrue trivial
  | .test | .wake _ => inferInstanceAs (Decidable (s.mState = .stopping))
  | .run _ | .initialised _ _ | .poll _ | .timeoutEnds false _ | .taskEnds _ _ | .activate
  | .deactivate | .forceQuit => isFalse id

instance (s : ScriptContainerJS) (action : Action) : Decidable (s.Disposes action) :=
  match action with
  | .run _ => inferInstanceAs (Decidable (s.phase = .ended → s.mInitFailureMessage ≠ []))
  | .initialised _ _ | .initFailed | .test | .poll _ | .wake _ | .timeoutEnds _ _ | .taskEnds _ _
  | .activate | .deactivate | .forceQuit =>
    inferInstanceAs (Decidable (s.Ends _ → s.mTasks = []))

end ScriptContainerJS

end NioevMqtt
