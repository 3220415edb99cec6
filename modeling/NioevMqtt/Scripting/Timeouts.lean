-- SUMMARY: Timers of scripts: setTimeout registers the timer it is called with, and clearTimeout takes back this one only, exactly if setTimeout is called with a delay.
import Mathlib.Data.List.Sort
import Mathlib.Data.Multiset.Bind
import NioevMqtt.Library.Runs
import NioevMqtt.Scripting.QuickJS

/-!
# Timers of scripts

`setTimeout`, `clearTimeout` and the part of the run loop that calls the functions of
timers that are due. Times are in nanoseconds.
-/

namespace NioevMqtt

/-- `argc` is an `int`. -/
structure Arguments (Value : Type) where
  args : List Value
  length_lt : args.length < 2 ^ 31

namespace Arguments

variable {Value : Type}

def argc (arguments : Arguments Value) : Int := arguments.args.length

end Arguments

structure TimeoutData (Value : Type) where
  mLastIntervalCall : Int
  /-- In milliseconds. -/
  mIntervalTimeout : Int
  mId : Int32
  mFunction : Value
  mFunctionArgs : List Value
deriving DecidableEq

namespace TimeoutData

variable {Value : Type}

def timeLeftUntilShouldBeRun (now : Int) (t : TimeoutData Value) : Int :=
  t.mIntervalTimeout * 1000000 - (now - t.mLastIntervalCall)

/-- `operator<`: the top of the queue is the timer with the least time left. -/
def lt (now : Int) (t other : TimeoutData Value) : Prop :=
  t.timeLeftUntilShouldBeRun now > other.timeLeftUntilShouldBeRun now

instance (now : Int) : DecidableRel (lt now : TimeoutData Value → TimeoutData Value → Prop) :=
  fun _ _ => inferInstanceAs (Decidable (_ > _))

/-- The values that belong to the timer. -/
def values (t : TimeoutData Value) : List Value := t.mFunction :: t.mFunctionArgs

end TimeoutData

/-- The timers of a script, and the values of QuickJS that are referenced for them. -/
structure ScriptTimeouts (Value : Type) where
  /-- The queue, its top first. -/
  mTimeouts : List (TimeoutData Value) := []
  mTimeoutIdCounter : Int32 := 1
  /-- The timer the run loop has taken from the queue, and has not freed yet. -/
  timeout : Option (TimeoutData Value) := none
  /-- What `JS_DupValue` has referenced and `JS_FreeValue` has not freed. -/
  references : Multiset Value := 0

namespace ScriptTimeouts

section

variable {Value : Type}

/-! ## The queue -/

def push (now : Int) (t : TimeoutData Value) (s : ScriptTimeouts Value) : ScriptTimeouts Value :=
  { s with mTimeouts := s.mTimeouts.orderedInsert (fun t other => ¬ t.lt now other) t }

@[simp] theorem mTimeouts_push (now : Int) (timer : TimeoutData Value) (s : ScriptTimeouts Value) :
    ((s.push now timer).mTimeouts : Multiset (TimeoutData Value)) = timer ::ₘ ↑s.mTimeouts :=
  Multiset.coe_eq_coe.mpr (List.perm_orderedInsert _ _ _)

def dupValues (values : List Value) (s : ScriptTimeouts Value) : ScriptTimeouts Value :=
  { s with references := values + s.references }

variable [DecidableEq Value]

def freeJSValues (t : TimeoutData Value) (s : ScriptTimeouts Value) : ScriptTimeouts Value :=
  { s with references := s.references - t.values }

/-- The loop of `clearTimeout` over the copy of the queue. -/
def clearLoop (now : Int) (id : Int32) :
    List (TimeoutData Value) → ScriptTimeouts Value → ScriptTimeouts Value
  | [], s => s
  | top :: timeoutsCpy, s =>
    if top.mId ≠ id then clearLoop now id timeoutsCpy (s.push now top)
    else clearLoop now id timeoutsCpy (s.freeJSValues top)

/-- The loop puts back what has another identifier. -/
theorem mTimeouts_clearLoop (now : Int) (id : Int32) (timeoutsCpy : List (TimeoutData Value))
    (s : ScriptTimeouts Value) :
    ((clearLoop now id timeoutsCpy s).mTimeouts : Multiset (TimeoutData Value)) =
      (timeoutsCpy : Multiset (TimeoutData Value)).filter (·.mId ≠ id) + ↑s.mTimeouts := by
  induction timeoutsCpy generalizing s with
  | nil => simp [clearLoop]
  | cons top timeoutsCpy ih =>
      unfold clearLoop
      split
      · next hother =>
          have hfilter : (top ::ₘ (timeoutsCpy : Multiset (TimeoutData Value))).filter (·.mId ≠ id) =
              top ::ₘ (timeoutsCpy : Multiset (TimeoutData Value)).filter (·.mId ≠ id) :=
            Multiset.filter_cons_of_pos _ hother
          rw [ih, mTimeouts_push, ← Multiset.cons_coe, hfilter, Multiset.cons_add,
            Multiset.add_cons]
      · next hsame =>
          rw [not_not] at hsame
          have hfilter : (top ::ₘ (timeoutsCpy : Multiset (TimeoutData Value))).filter (·.mId ≠ id) =
              (timeoutsCpy : Multiset (TimeoutData Value)).filter (·.mId ≠ id) :=
            Multiset.filter_cons_of_neg _ (not_not.mpr hsame)
          rw [ih, ← Multiset.cons_coe, hfilter]
          rfl

theorem clearLoop_frame (now : Int) (id : Int32) (timeoutsCpy : List (TimeoutData Value))
    (s : ScriptTimeouts Value) :
    (clearLoop now id timeoutsCpy s).mTimeoutIdCounter = s.mTimeoutIdCounter ∧
      (clearLoop now id timeoutsCpy s).timeout = s.timeout := by
  induction timeoutsCpy generalizing s with
  | nil => exact ⟨rfl, rfl⟩
  | cons top timeoutsCpy ih =>
      unfold clearLoop
      split
      · exact ih (s.push now top)
      · exact ih (s.freeJSValues top)

/-! ## `setTimeout` -/

variable [QuickJS Value]

/-- The largest size of a vector of `JSValue`s, which have 16 bytes. -/
def maxSize : Nat := (2 ^ 63 - 1) / 16

/-- `passedArgs.reserve(n)`: the parameter is a `size_t`. -/
def reserve (n : Int) : Except String Unit :=
  if n % 2 ^ 64 > maxSize then .error "vector::reserve" else .ok ()

/-- The second argument. The conversion may run code of the script, before anything is done
to the timers: what this code calls comes before the call. -/
def timeoutOf (arguments : Arguments Value) : Except String Int :=
  if arguments.argc ≥ 2 then
    match arguments.args[1]?.bind QuickJS.toInt32 with
    | none => .error "Timeout must be an int32!"
    | some timeout => .ok timeout.toInt
  else .ok 0

/-- `mTimeoutIdCounter++`, with the wrap around. -/
def nextId (mTimeoutIdCounter : Int32) : Int32 :=
  if mTimeoutIdCounter + 1 < 0 then 1 else mTimeoutIdCounter + 1

/-- `setTimeoutFunc` from the identifier on: the value that is returned or the message that is
thrown, and the timers afterwards. -/
def addTimeout (s : ScriptTimeouts Value) (now timeout : Int) (function : Value)
    (arguments : Arguments Value) : Except String Value × ScriptTimeouts Value :=
  let id := s.mTimeoutIdCounter
  let s := { s with mTimeoutIdCounter := nextId id }
  match reserve (arguments.argc - 2) with
  | .error message => (.error message, s)
  | .ok () =>
    let passedArgs := arguments.args.drop 2
    (.ok (QuickJS.newInt32 id),
      (s.dupValues (function :: passedArgs)).push now ⟨now, timeout, id, function, passedArgs⟩)

def setTimeoutFunc (s : ScriptTimeouts Value) (now : Int) (arguments : Arguments Value) :
    Except String Value × ScriptTimeouts Value :=
  match arguments.args[0]? with
  | none => (.error "You need to pass the function to call", s)
  | some function =>
    if ¬ QuickJS.isFunction function then
      (.error "Argument 0 to setTimeout must be a function", s)
    else
      match timeoutOf arguments with
      | .error message => (.error message, s)
      | .ok timeout => s.addTimeout now timeout function arguments

/-! ## `clearTimeout` -/

/-- `clearTimeoutFunc` -/
def clearTimeoutFunc (s : ScriptTimeouts Value) (now : Int) (arguments : Arguments Value) :
    Except String Unit × ScriptTimeouts Value :=
  match arguments.args[0]? with
  | none => (.error "You need to pass an id", s)
  | some value =>
    match QuickJS.toInt32 value with
    | none => (.error "Id must be an int32!", s)
    | some id => (.ok (), clearLoop now id s.mTimeouts { s with mTimeouts := [] })

/-! ## The system -/

inductive Action (Value : Type) where
  | setTimeout (now : Int) (arguments : Arguments Value)
  | clearTimeout (now : Int) (arguments : Arguments Value)
  /-- The run loop takes the timer at the top, if it is due. -/
  | takeTimeout (now : Int)
  /-- The function of the timer has returned. Where it throws the thread ends, and the timer
  stays as it is. -/
  | timeoutEnds

def step (s : ScriptTimeouts Value) : Action Value → Option (ScriptTimeouts Value)
  | .setTimeout now arguments => some (s.setTimeoutFunc now arguments).2
  | .clearTimeout now arguments => some (s.clearTimeoutFunc now arguments).2
  | .takeTimeout now =>
    match s.timeout, s.mTimeouts with
    | none, top :: mTimeouts =>
      if top.timeLeftUntilShouldBeRun now > 0 then none
      else some { s with mTimeouts, timeout := some top }
    | _, _ => none
  | .timeoutEnds =>
    s.timeout.map fun timeout => { s.freeJSValues timeout with timeout := none }

def initial : ScriptTimeouts Value := {}

/-- The identifier counter does not wrap around. -/
def Counts (s : ScriptTimeouts Value) : Action Value → Prop
  | .setTimeout _ _ => ¬ s.mTimeoutIdCounter + 1 < 0
  | _ => True

/-! ## What is claimed -/

/-- The states in which the identifier counter has not wrapped around. -/
def Unwrapped (s : ScriptTimeouts Value) : Prop :=
  ∃ run, Runs.IsRun (Runs.StepOf step) initial run ∧ Runs.AllSteps Counts initial run ∧
    Runs.last initial run = s

/-- A function and, where there is a second argument, one that converts. -/
structure Accepted (arguments : Arguments Value) (function : Value) (timeout : Int) : Prop where
  function_eq : arguments.args[0]? = some function
  isFunction : QuickJS.isFunction function = true
  timeout_eq : ((arguments.args[1]?).elim (some 0) fun value =>
    (QuickJS.toInt32 value).map Int32.toInt) = some timeout

/-- `clearTimeout` of the identifier leaves these timers. -/
def ClearsTo (s : ScriptTimeouts Value) (id : Value) (timers : Multiset (TimeoutData Value)) :
    Prop :=
  ∀ now, ∀ arguments : Arguments Value, arguments.args[0]? = some id →
    ∃ t, s.clearTimeoutFunc now arguments = (.ok (), t) ∧ ↑t.mTimeouts = timers

/-- `setTimeout` adds this timer and no other, and `clearTimeout` takes it back. -/
def Registers (s : ScriptTimeouts Value) (now : Int) (arguments : Arguments Value)
    (function : Value) (timeout : Int) : Prop :=
  ∃ (id : Int32) (t : ScriptTimeouts Value),
    s.setTimeoutFunc now arguments = (.ok (QuickJS.newInt32 id), t) ∧
      (t.mTimeouts : Multiset (TimeoutData Value)) =
        ⟨now, timeout, id, function, arguments.args.drop 2⟩ ::ₘ ↑s.mTimeouts ∧
      (s.Unwrapped → t.ClearsTo (QuickJS.newInt32 id) s.mTimeouts)

/-- `clearTimeout` changes nothing but the timer with its identifier. -/
def ClearsOnly (s : ScriptTimeouts Value) : Prop :=
  ∀ value id, QuickJS.toInt32 value = some id →
    s.ClearsTo value ((s.mTimeouts : Multiset (TimeoutData Value)).filter (·.mId ≠ id))

/-! ## The operations -/

variable {s t : ScriptTimeouts Value} {now : Int} {id : Int32} {arguments : Arguments Value}

theorem clearsOnly (s : ScriptTimeouts Value) : s.ClearsOnly := by
  intro value id hid now arguments hvalue
  refine ⟨clearLoop now id s.mTimeouts { s with mTimeouts := [] }, ?_, ?_⟩
  · simp only [clearTimeoutFunc, hvalue, hid]
  · rw [mTimeouts_clearLoop]
    exact Multiset.add_zero _

omit [DecidableEq Value] in
/-- What `setTimeout` does: nothing, or it takes an identifier, or it adds a timer with this
identifier. -/
theorem setTimeoutFunc_cases (s : ScriptTimeouts Value) (now : Int) (arguments : Arguments Value) :
    (s.setTimeoutFunc now arguments).2 = s ∨
      (s.setTimeoutFunc now arguments).2 =
        { s with mTimeoutIdCounter := nextId s.mTimeoutIdCounter } ∨
      ∃ timer : TimeoutData Value, timer.mId = s.mTimeoutIdCounter ∧
        (s.setTimeoutFunc now arguments).2 =
          ({ s with mTimeoutIdCounter := nextId s.mTimeoutIdCounter }.dupValues
            timer.values).push now timer := by
  unfold setTimeoutFunc
  split
  · exact .inl rfl
  · split
    · exact .inl rfl
    · split
      · exact .inl rfl
      · unfold addTimeout
        split
        · exact .inr (.inl rfl)
        · exact .inr (.inr ⟨_, rfl, rfl⟩)

theorem clearTimeoutFunc_cases (s : ScriptTimeouts Value) (now : Int)
    (arguments : Arguments Value) :
    (s.clearTimeoutFunc now arguments).2 = s ∨
      ∃ id, (s.clearTimeoutFunc now arguments).2 =
        clearLoop now id s.mTimeouts { s with mTimeouts := [] } := by
  unfold clearTimeoutFunc
  split
  · exact .inl rfl
  · split
    · exact .inl rfl
    · exact .inr ⟨_, rfl⟩

/-! ## Identifiers -/

/-- The identifiers of the timers have all been given before. -/
def Fresh (s : ScriptTimeouts Value) : Prop :=
  ∀ timer ∈ s.mTimeouts, timer.mId < s.mTimeoutIdCounter

theorem lt_nextId {n : Int32} (h : ¬ n + 1 < 0) : n < nextId n := by
  have hlt := n.toInt_lt
  have hle := n.le_toInt
  have hadd : (n + 1).toInt = (n.toInt + 1).bmod (2 ^ 32) := Int32.toInt_add n 1
  have hnonneg : 0 ≤ (n + 1).toInt := by
    rw [Int32.lt_iff_toInt_lt, not_lt] at h
    exact h
  rw [nextId, if_neg h, Int32.lt_iff_toInt_lt]
  rw [hadd, Int.bmod_def] at hnonneg ⊢
  omega

theorem Fresh.step {action : Action Value} (h : s.Fresh) (hcounts : s.Counts action)
    (hstep : s.step action = some t) : t.Fresh := by
  cases action with
  | setTimeout now arguments =>
      cases hstep
      have hlt := lt_nextId hcounts
      rcases setTimeoutFunc_cases s now arguments with heq | heq | ⟨timer, hid, heq⟩
      · rw [heq]
        exact h
      · rw [heq]
        exact fun timer htimer => Int32.lt_trans (h timer htimer) hlt
      · rw [heq]
        intro timer' htimer'
        rw [← Multiset.mem_coe, mTimeouts_push, Multiset.mem_cons] at htimer'
        rcases htimer' with rfl | htimer'
        · have hnext : timer'.mId < nextId s.mTimeoutIdCounter := by
            rw [hid]
            exact hlt
          exact hnext
        · exact Int32.lt_trans (h timer' htimer') hlt
  | clearTimeout now arguments =>
      cases hstep
      rcases clearTimeoutFunc_cases s now arguments with heq | ⟨id, heq⟩
      · rw [heq]
        exact h
      · rw [heq]
        intro timer htimer
        rw [← Multiset.mem_coe, mTimeouts_clearLoop] at htimer
        rw [(clearLoop_frame now id _ _).1]
        exact h timer (Multiset.mem_of_mem_filter (Multiset.mem_add.mp htimer |>.resolve_right
          (Multiset.notMem_zero _)))
  | takeTimeout now =>
      simp only [ScriptTimeouts.step] at hstep
      split at hstep
      · next top mTimeouts htimeout hqueue =>
          obtain ⟨-, hstep⟩ := Option.ite_none_left_eq_some.mp hstep
          cases hstep
          exact fun timer htimer => h timer (hqueue ▸ List.mem_cons_of_mem _ htimer)
      · cases hstep
  | timeoutEnds =>
      obtain ⟨timeout, -, rfl⟩ := Option.map_eq_some_iff.mp hstep
      exact h

theorem Unwrapped.fresh (h : s.Unwrapped) : s.Fresh := by
  obtain ⟨run, hrun, hcounts, rfl⟩ := h
  refine (hrun.guarded hcounts).invariant_last ?_ (fun timer htimer => by cases htimer)
  rintro s action t h ⟨hcounts, hstep⟩
  exact h.step hcounts hstep

/-! ## References -/

/-- The values that belong to timers. -/
def held (timers : Multiset (TimeoutData Value)) : Multiset Value :=
  timers.bind fun timer => timer.values

/-- What is referenced is what belongs to the timers of the queue and to the one taken from
it. -/
def Owned (s : ScriptTimeouts Value) : Prop :=
  s.references = held s.mTimeouts + held s.timeout.toList

omit [DecidableEq Value] [QuickJS Value] in
theorem held_cons (timer : TimeoutData Value) (timers : Multiset (TimeoutData Value)) :
    held (timer ::ₘ timers) = timer.values + held timers :=
  Multiset.cons_bind _ _ _

omit [DecidableEq Value] [QuickJS Value] in
@[simp] theorem held_none :
    held ((none : Option (TimeoutData Value)).toList : Multiset (TimeoutData Value)) = 0 :=
  Multiset.zero_bind _

omit [DecidableEq Value] [QuickJS Value] in
@[simp] theorem held_some (timer : TimeoutData Value) :
    held ((some timer).toList : Multiset (TimeoutData Value)) = timer.values :=
  Multiset.singleton_bind _ _

omit [QuickJS Value] in
/-- The loop hands over the values of the timers it puts back, and frees those of the others. -/
theorem references_clearLoop {timeoutsCpy : List (TimeoutData Value)} {rest : Multiset Value}
    (h : s.references = held timeoutsCpy + (held s.mTimeouts + rest)) :
    (clearLoop now id timeoutsCpy s).references =
      held (clearLoop now id timeoutsCpy s).mTimeouts + rest := by
  induction timeoutsCpy generalizing s with
  | nil => exact h.trans (zero_add _)
  | cons top timeoutsCpy ih =>
      rw [← Multiset.cons_coe, held_cons] at h
      unfold clearLoop
      split
      · refine ih ?_
        rw [mTimeouts_push, held_cons]
        have hpush : (s.push now top).references = s.references := rfl
        rw [hpush, h, add_assoc, add_assoc, add_left_comm]
      · refine ih ?_
        have hfree : (s.freeJSValues top).references = s.references - top.values := rfl
        rw [hfree, h, add_assoc, add_tsub_cancel_left]
        rfl

theorem Owned.step {action : Action Value} (h : s.Owned) (hstep : s.step action = some t) :
    t.Owned := by
  cases action with
  | setTimeout now arguments =>
      cases hstep
      rcases setTimeoutFunc_cases s now arguments with heq | heq | ⟨timer, -, heq⟩
      · rw [heq]
        exact h
      · rw [heq]
        exact h
      · rw [heq, Owned, mTimeouts_push, held_cons, add_assoc]
        exact congrArg ((timer.values : Multiset Value) + ·) h
  | clearTimeout now arguments =>
      cases hstep
      rcases clearTimeoutFunc_cases s now arguments with heq | ⟨id, heq⟩
      · rw [heq]
        exact h
      · rw [heq, Owned, (clearLoop_frame now id _ _).2]
        refine references_clearLoop (h.trans (congrArg (held _ + ·) ?_))
        exact (zero_add _).symm
  | takeTimeout now =>
      simp only [ScriptTimeouts.step] at hstep
      split at hstep
      · next top mTimeouts htimeout hqueue =>
          obtain ⟨-, hstep⟩ := Option.ite_none_left_eq_some.mp hstep
          cases hstep
          rw [Owned, htimeout, hqueue, ← Multiset.cons_coe, held_cons] at h
          rw [held_none, add_zero] at h
          rw [Owned, held_some, add_comm]
          exact h
      · cases hstep
  | timeoutEnds =>
      obtain ⟨timeout, htimeout, rfl⟩ := Option.map_eq_some_iff.mp hstep
      rw [Owned, htimeout, held_some] at h
      have hfree : s.references - (timeout.values : Multiset Value) =
          held (s.mTimeouts : Multiset (TimeoutData Value)) := by
        rw [h, add_tsub_cancel_right]
      rw [Owned, held_none, add_zero]
      exact hfree


/-- In every state of a run the timers have exactly the references that belong to them. -/
theorem owned_of_isRun {run : List (Action Value × ScriptTimeouts Value)}
    (hrun : Runs.IsRun (Runs.StepOf step) initial run) : (Runs.last initial run).Owned :=
  hrun.invariant_last (fun _ _ _ h hstep => h.step hstep) rfl

/-! ## Registration -/

omit [DecidableEq Value] [QuickJS Value] in
theorem reserve_eq_ok_iff (h : 0 < arguments.argc) :
    reserve (arguments.argc - 2) = .ok () ↔ 2 ≤ arguments.argc := by
  have hlt : arguments.argc < 2 ^ 31 := by
    have := arguments.length_lt
    unfold Arguments.argc
    omega
  have hsize : reserve (arguments.argc - 2) = .ok () ↔
      ¬ (arguments.argc - 2) % 2 ^ 64 > maxSize := by
    unfold reserve
    split
    · next hgt => exact iff_of_false (by rintro ⟨⟩) (not_not.mpr hgt)
    · next hle => exact iff_of_true rfl hle
  rw [hsize]
  unfold maxSize
  omega

omit [DecidableEq Value] in
theorem Accepted.timeoutOf_eq {function : Value} {timeout : Int}
    (h : Accepted arguments function timeout) : timeoutOf arguments = .ok timeout := by
  have htimeout := h.timeout_eq
  unfold timeoutOf
  split
  · next hargc =>
      have hlength : 1 < arguments.args.length := by
        unfold Arguments.argc at hargc
        omega
      rw [List.getElem?_eq_getElem hlength] at htimeout ⊢
      obtain ⟨n, hn, rfl⟩ := Option.map_eq_some_iff.mp htimeout
      simp only [Option.bind_some, hn]
  · next hargc =>
      have hlength : arguments.args.length ≤ 1 := by
        unfold Arguments.argc at hargc
        omega
      rw [List.getElem?_eq_none hlength] at htimeout
      cases htimeout
      rfl

omit [DecidableEq Value] in
theorem Accepted.setTimeoutFunc_eq {function : Value} {timeout : Int}
    (h : Accepted arguments function timeout) (s : ScriptTimeouts Value) (now : Int) :
    s.setTimeoutFunc now arguments = s.addTimeout now timeout function arguments := by
  simp only [setTimeoutFunc, h.function_eq, h.isFunction, h.timeoutOf_eq, not_true, if_false]

omit [DecidableEq Value] in
theorem addTimeout_of_reserve (hreserve : reserve (arguments.argc - 2) = .ok ())
    (s : ScriptTimeouts Value) (now timeout : Int) (function : Value) :
    s.addTimeout now timeout function arguments =
      (.ok (QuickJS.newInt32 s.mTimeoutIdCounter),
        ({ s with mTimeoutIdCounter := nextId s.mTimeoutIdCounter }.dupValues
          (function :: arguments.args.drop 2)).push now
            ⟨now, timeout, s.mTimeoutIdCounter, function, arguments.args.drop 2⟩) := by
  rw [addTimeout, hreserve]

/-- A timer is registered, and can be cleared again, exactly if there is a second argument. -/
theorem registers_iff [JSValues Value] {function : Value} {timeout : Int}
    (h : Accepted arguments function timeout) (s : ScriptTimeouts Value) (now : Int) :
    s.Registers now arguments function timeout ∧ s.ClearsOnly ↔ 2 ≤ arguments.argc := by
  have hargc : 0 < arguments.argc := by
    obtain ⟨hlength, -⟩ := List.getElem?_eq_some_iff.mp h.function_eq
    unfold Arguments.argc
    omega
  rw [and_iff_left s.clearsOnly, ← reserve_eq_ok_iff hargc]
  constructor
  · rintro ⟨id, t, heq, -⟩
    rw [h.setTimeoutFunc_eq, addTimeout] at heq
    split at heq
    · cases heq
    · next hreserve => exact hreserve
  · intro hreserve
    have hadd := (h.setTimeoutFunc_eq s now).trans
      (addTimeout_of_reserve hreserve s now timeout function)
    refine ⟨s.mTimeoutIdCounter, _, hadd, mTimeouts_push _ _ _, ?_⟩
    intro hunwrapped now' arguments' hid
    obtain ⟨t, ht, htimers⟩ := clearsOnly _ _ _ (JSValues.toInt32_newInt32 _) now' arguments' hid
    have hother : ∀ timer ∈ (s.mTimeouts : Multiset (TimeoutData Value)),
        timer.mId ≠ s.mTimeoutIdCounter :=
      fun timer htimer => Int32.ne_of_lt (hunwrapped.fresh timer htimer)
    refine ⟨t, ht, htimers.trans ?_⟩
    rw [mTimeouts_push, Multiset.filter_cons, if_neg (not_not.mpr rfl), Multiset.zero_add]
    exact Multiset.filter_eq_self.mpr hother

end

/-- `setTimeout(f, 100, 3)` -/
def delayed : Arguments JSValue := ⟨[.function 7, .number 100, .number 3], by decide⟩

theorem accepted_delayed : Accepted delayed (.function 7) 100 := ⟨rfl, rfl, rfl⟩

theorem registers_delayed :
    initial.Registers 0 delayed (.function 7) 100 ∧ ClearsOnly (initial : ScriptTimeouts JSValue) :=
  (registers_iff accepted_delayed initial 0).mpr (by decide)

/-- `setTimeout(f)` -/
def undelayed : Arguments JSValue := ⟨[.function 7], by decide⟩

/-- A function alone is accepted, and `reserve` throws. -/
theorem not_registers_undelayed :
    Accepted undelayed (.function 7) 0 ∧ ¬ initial.Registers 0 undelayed (.function 7) 0 := by
  refine ⟨⟨rfl, rfl, rfl⟩, ?_⟩
  rintro ⟨id, t, heq, -⟩
  have hthrows : (initial.setTimeoutFunc 0 undelayed).1 = .error "vector::reserve" := rfl
  rw [heq] at hthrows
  cases hthrows

end ScriptTimeouts

end NioevMqtt
