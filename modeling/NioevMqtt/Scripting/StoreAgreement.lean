-- SUMMARY: Over every run of the threads memory and database agree about a script once nothing waits, as long as an upload is neither overtaken by a deletion or a pause nor by another upload.
import NioevMqtt.Scripting.ScriptStore

/-!
# Agreement of the script store

An upload writes its row at once, and its script when it is executed. Whatever else is
asked about a script writes both when it is executed, and may come before the upload
although the row was there first.
-/

namespace NioevMqtt

namespace ScriptRequest

/-- The way the REST thread makes the request. -/
def mode : ScriptRequest → RequestChangeMode
  | .activateScript _ | .deactivateScript _ => .sync
  | .addScript _ _ | .deleteScript _ => .async

/-- The code a request uploads under a name. -/
def uploads (name : ByteString) : ScriptRequest → Option ByteString
  | .addScript other code => if other = name then some code else none
  | _ => none

variable {name code : ByteString} {change : ScriptRequest}

theorem uploads_eq_some_iff : change.uploads name = some code ↔ change = .addScript name code := by
  cases change with
  | addScript other code' =>
      simp only [uploads, Option.ite_none_right_eq_some, Option.some.injEq, addScript.injEq]
  | _ => exact iff_of_false (fun h => by cases h) (fun h => by cases h)

end ScriptRequest

namespace Requests

/-- The codes that wait in a queue to be loaded under a name. -/
def codes (name : ByteString) (queue : List (Ticket ScriptRequest)) : List ByteString :=
  queue.filterMap fun ticket => ticket.change.uploads name

/-- A thread is in the middle of an upload. -/
def Uploading (r : Requests ScriptRequest) (name code : ByteString) : Prop :=
  ∃ thread call, r.calls thread = some call ∧ call.change = .addScript name code

end Requests

open Requests (codes)

/-! ## What waits -/

/-- The codes in the two queues, those in the hands of a thread and the store, as far as
one script is concerned. The queues may change places. -/
structure Settling (waiting waiting' : List ByteString) (called : ByteString → Prop)
    (s : ScriptStore) (name : ByteString) : Prop where
  /-- Of uploads in different queues it does not matter which comes first. -/
  same : ∀ code ∈ waiting, ∀ code' ∈ waiting', code = code'
  row : ∀ code, called code → s.table.lookup name = some { code := code }
  last : (∀ code, ¬ called code) → ∀ code ∈ waiting.getLast?,
    s.table.lookup name = some { code := code }
  last' : (∀ code, ¬ called code) → ∀ code ∈ waiting'.getLast?,
    s.table.lookup name = some { code := code }
  agrees : (∀ code, ¬ called code) → waiting = [] → waiting' = [] → s.Agrees name

namespace Settling

variable {waiting waiting' : List ByteString} {called called' : ByteString → Prop}
  {s s' : ScriptStore} {name code : ByteString}

theorem symm (h : Settling waiting waiting' called s name) :
    Settling waiting' waiting called s name where
  same := fun code hcode code' hcode' => (h.same code' hcode' code hcode).symm
  row := h.row
  last := h.last'
  last' := h.last
  agrees := fun hcalled hempty hempty' => h.agrees hcalled hempty' hempty

/-- The store may change as long as the row stays, and the agreement with it. -/
theorem congr (h : Settling waiting waiting' called s name)
    (htable : s'.table.lookup name = s.table.lookup name) (hagrees : s.Agrees name → s'.Agrees name) :
    Settling waiting waiting' called s' name where
  same := h.same
  row := by
    rw [htable]
    exact h.row
  last := by
    rw [htable]
    exact h.last
  last' := by
    rw [htable]
    exact h.last'
  agrees := fun hcalled hempty hempty' => hagrees (h.agrees hcalled hempty hempty')

theorem congr_called (h : Settling waiting waiting' called s name)
    (hcalled : ∀ code, called' code ↔ called code) : Settling waiting waiting' called' s name := by
  have heq : called' = called := funext fun code => propext (hcalled code)
  exact heq ▸ h

/-- The row is active while an upload is under way. -/
theorem exists_row (h : Settling waiting waiting' called s name)
    (hunder : ¬ ((∀ code, ¬ called code) ∧ waiting = [] ∧ waiting' = [])) :
    ∃ code, s.table.lookup name = some { code := code } := by
  by_cases hcalled : ∀ code, ¬ called code
  · rcases List.eq_nil_or_concat' waiting with hnil | ⟨before, code, rfl⟩
    · rcases List.eq_nil_or_concat' waiting' with hnil' | ⟨before', code, rfl⟩
      · exact absurd ⟨hcalled, hnil, hnil'⟩ hunder
      · exact ⟨code, h.last' hcalled code List.getLast?_concat⟩
    · exact ⟨code, h.last hcalled code List.getLast?_concat⟩
  · obtain ⟨code, hcode⟩ := not_forall_not.mp hcalled
    exact ⟨code, h.row code hcode⟩

/-- Nothing is under way. -/
theorem of_agrees (h : s.Agrees name) (hcalled : ∀ code, ¬ called code) :
    Settling [] [] called s name where
  same := fun _ hcode => by cases hcode
  row := fun code hcode => absurd hcode (hcalled code)
  last := fun _ _ hcode => by cases hcode
  last' := fun _ _ hcode => by cases hcode
  agrees := fun _ _ _ => h

/-- An upload begins with its row. -/
theorem insertRow (h : Settling waiting waiting' called s name) :
    Settling waiting waiting' (· = code) (s.insertRow name code) name where
  same := h.same
  row := by
    rintro _ rfl
    exact AList.lookup_insert _
  last := fun hnone => absurd rfl (hnone code)
  last' := fun hnone => absurd rfl (hnone code)
  agrees := fun hnone => absurd rfl (hnone code)

/-- It joins a queue while none with another code waits in the other. -/
theorem concat (h : Settling waiting waiting' (· = code) s name)
    (hjoins : ∀ code' ∈ waiting', code = code') (hcalled : ∀ code, ¬ called code) :
    Settling (waiting ++ [code]) waiting' called s name where
  same := by
    intro first hfirst second hsecond
    rcases List.mem_append.mp hfirst with hold | hnew
    · exact h.same first hold second hsecond
    · rw [List.mem_singleton.mp hnew]
      exact hjoins second hsecond
  row := fun code hcode => absurd hcode (hcalled code)
  last := by
    intro _ last hlast
    rw [List.getLast?_concat] at hlast
    cases hlast
    exact h.row _ rfl
  last' := by
    intro _ last hlast
    rw [← hjoins last (List.mem_of_getLast? hlast)]
    exact h.row _ rfl
  agrees := fun _ hempty => absurd hempty (by simp)

variable [ScriptNames]

/-- It is executed. -/
theorem addScript (hjs : ScriptNames.getFileExtension name = dotJs)
    (h : Settling (code :: waiting) waiting' called s name) :
    Settling waiting waiting' called (s.addScript name code) name where
  same := fun first hfirst => h.same first (List.mem_cons_of_mem _ hfirst)
  row := by
    rw [ScriptStore.table_addScript]
    exact h.row
  last := by
    intro hcalled last hlast
    rw [ScriptStore.table_addScript]
    refine h.last hcalled last ?_
    cases waiting with
    | nil => cases hlast
    | cons second rest => exact hlast
  last' := by
    rw [ScriptStore.table_addScript]
    exact h.last'
  agrees := by
    rintro hcalled rfl rfl
    exact ScriptStore.agrees_addScript hjs (h.last hcalled code rfl)

/-- Something else is asked about a script. A deletion or a pause finds nothing under way. -/
theorem visit {change : ScriptRequest} (h : Settling waiting waiting' called s name)
    (hadd : change.uploads name = none)
    (hsettled : change = .deleteScript name ∨
      change = .deactivateScript name ∧ s.mScripts.lookup name ≠ none →
        (∀ code, ¬ called code) ∧ waiting = [] ∧ waiting' = []) :
    Settling waiting waiting' called (s.visit change) name := by
  have hagrees : s.Agrees name → (s.visit change).Agrees name := by
    intro hagrees
    refine hagrees.visit fun code heq => ?_
    rw [ScriptRequest.uploads_eq_some_iff.mpr heq] at hadd
    cases hadd
  have hidle : (∀ code, ¬ called code) ∧ waiting = [] ∧ waiting' = [] →
      Settling waiting waiting' called (s.visit change) name := by
    rintro ⟨hcalled, rfl, rfl⟩
    exact .of_agrees (hagrees (h.agrees hcalled rfl rfl)) hcalled
  by_cases hname : name = change.name
  · cases change with
    | addScript other code =>
        obtain rfl : name = other := hname
        rw [ScriptRequest.uploads_eq_some_iff.mpr rfl] at hadd
        cases hadd
    | deleteScript other =>
        obtain rfl : name = other := hname
        exact hidle (hsettled (.inl rfl))
    | activateScript other =>
        obtain rfl : name = other := hname
        by_cases hunder : (∀ code, ¬ called code) ∧ waiting = [] ∧ waiting' = []
        · exact hidle hunder
        · -- The row of an upload that is under way is active already.
          obtain ⟨code, hrow⟩ := h.exists_row hunder
          refine h.congr ?_ hagrees
          simp only [ScriptStore.visit]
          split
          · rfl
          · refine (ScriptStore.lookup_updateActive s name true).trans ?_
            rw [hrow]
            rfl
    | deactivateScript other =>
        obtain rfl : name = other := hname
        by_cases hscript : s.mScripts.lookup name = none
        · refine h.congr ?_ hagrees
          simp only [ScriptStore.visit, hscript]
        · exact hidle (hsettled (.inr ⟨rfl, hscript⟩))
  · exact h.congr (ScriptStore.lookup_visit_of_ne s hname).2 hagrees

end Settling

/-! ## Steps -/

abbrev ScriptQueues := RequestQueues ScriptRequest ScriptStore

namespace ScriptQueues

inductive Action where
  /-- `addScript` up to its request, by a thread that has the lock. -/
  | addScript (thread : Thread) (name code : ByteString)
  | requestChange (thread : Thread) (change : ScriptRequest)
  /-- The thread of a script finds an error in its code. -/
  | initFails (name : ByteString)
  /-- What happens to requests that have been made. -/
  | queues (action : RequestQueues.Action ScriptRequest)

def setState (q : ScriptQueues) (state : ScriptStore) : ScriptQueues := { q with state := state }

section

variable [ScriptNames]

/-- The worker thread adds no scripts. -/
def step (q : ScriptQueues) : Action → Option ScriptQueues
  | .addScript thread name code =>
    if ScriptNames.hasValidScriptExtension name = true ∧ q.mMutex = some thread ∧
        thread ≠ .worker then
      RequestQueues.step ScriptStore.visit (q.setState (q.state.insertRow name code))
        (.call thread (.addScript name code) .async)
    else none
  | .requestChange thread change =>
    match change with
    | .addScript _ _ => none
    | change => RequestQueues.step ScriptStore.visit q (.call thread change change.mode)
  | .initFails name =>
    match q.state.mScripts.lookup name with
    | none => none
    | some script => some (q.setState (q.state.setScript name script.initFails))
  | .queues (.call _ _ _) => none
  | .queues action => RequestQueues.step ScriptStore.visit q action

omit [ScriptNames] in
/-- No upload of the script waits to be executed. -/
def Settled (q : ScriptQueues) (name : ByteString) : Prop :=
  codes name q.mQueueInternal = [] ∧ codes name q.mQueue = []

/-- A script is neither deleted nor paused while an upload of it waits. -/
def Harmless (q : ScriptQueues) : ScriptRequest → Prop
  | .deleteScript name => ScriptNames.getFileExtension name = dotJs → q.Settled name
  | .deactivateScript name =>
    ScriptNames.getFileExtension name = dotJs → q.state.mScripts.lookup name ≠ none → q.Settled name
  | _ => True

/-- An upload joins a queue while none with another code waits in the other. -/
def Joins (q : ScriptQueues) (thread : Thread) : ScriptRequest → Prop
  | .addScript name code =>
    ScriptNames.getFileExtension name = dotJs →
      if q.mCurrentRWHolderOfMMutex = some thread then ∀ code' ∈ codes name q.mQueue, code = code'
      else ∀ code' ∈ codes name q.mQueueInternal, code = code'
  | _ => True

/-- No upload is overtaken. -/
def InTurn (q : ScriptQueues) : Action → Prop
  | .queues (.enqueue thread) => ∀ call ∈ q.calls thread, q.Joins thread call.change
  | .queues (.executeNow thread) => ∀ call ∈ q.calls thread, q.Harmless call.change
  | .queues .execute => ∀ ticket ∈ q.mQueue.head?, q.Harmless ticket.change
  | .queues .executeInternal => ∀ ticket ∈ q.mQueueInternal.head?, q.Harmless ticket.change
  | _ => True

/-! ## The invariant -/

/-- A thread in the middle of an upload has the lock. -/
def Locked (q : ScriptQueues) : Prop :=
  ∀ thread call name code, q.calls thread = some call → call.change = .addScript name code →
    q.mMutex = some thread ∧ thread ≠ .worker ∧ call.mode = .async

/-- All scripts settle. -/
structure Consistent (q : ScriptQueues) : Prop where
  locked : q.Locked
  settling : ∀ name, ScriptNames.getFileExtension name = dotJs →
    Settling (codes name q.mQueueInternal) (codes name q.mQueue) (q.Uploading name) q.state name

variable {q q' : ScriptQueues} {thread t : Thread} {name code : ByteString}

omit [ScriptNames] in
/-- The uploads that go on are the old ones. -/
theorem Locked.of_calls (h : q.Locked)
    (hcalls : ∀ t call, q'.calls t = some call → q.calls t = some call)
    (howner : ∀ t, (q.calls t).isSome → q.mMutex = some t → (q'.calls t).isSome → q'.mMutex = some t) :
    q'.Locked := by
  intro t call name code hcall hadd
  have hold := hcalls t call hcall
  obtain ⟨hmutex, hworker, hmode⟩ := h t call name code hold hadd
  refine ⟨howner t ?_ hmutex ?_, hworker, hmode⟩
  · rw [hold]
    rfl
  · rw [hcall]
    rfl

omit [ScriptNames] in
theorem calls_endCall {r : Requests ScriptRequest} {call : PendingCall ScriptRequest}
    (hcall : (r.endCall thread).calls t = some call) : t ≠ thread ∧ r.calls t = some call := by
  by_cases ht : t = thread
  · subst ht
    have hnone : (r.endCall t).calls t = none := Function.update_self _ _ _
    rw [hnone] at hcall
    cases hcall
  · exact ⟨ht, (Function.update_of_ne ht _ _).symm.trans hcall⟩

theorem Locked.queues {action : RequestQueues.Action ScriptRequest} (h : q.Locked)
    (hnew : ∀ thread change mode, action ≠ .call thread change mode)
    (hstep : RequestQueues.Steps ScriptStore.visit q action q') : q'.Locked := by
  cases hstep with
  | lock hfree hidle =>
      refine h.of_calls (fun _ _ hcall => hcall) fun t _ hmutex => ?_
      rw [hfree] at hmutex
      cases hmutex
  | @unlock thread howner hidle hworker =>
      refine h.of_calls (fun _ _ hcall => hcall) fun t hcalls hmutex => ?_
      cases howner.symm.trans hmutex
      rw [hidle] at hcalls
      cases hcalls
  | resetHolder => exact h
  | call hidle => exact absurd rfl (hnew _ _ _)
  | enqueue hcall hmode =>
      refine h.of_calls (fun t call hcall => ?_) fun t _ hmutex _ => ?_
      · rw [RequestQueues.calls_enqueue] at hcall
        exact (calls_endCall hcall).2
      · rw [RequestQueues.mMutex_enqueue]
        exact hmutex
  | executeNow hcall hmode hfree =>
      refine h.of_calls (fun t call hcall => (calls_endCall hcall).2) fun t _ hmutex => ?_
      rw [hfree] at hmutex
      cases hmutex
  | execute => exact h
  | processInternalQueue => exact h
  | executeInternal => exact h
  | drained => exact h

omit [ScriptNames] in
/-- At most one upload goes on. -/
theorem Locked.uploading_iff (h : q.Locked) {call : PendingCall ScriptRequest}
    (hcall : q.calls thread = some call) (hadd : call.change = .addScript name code)
    {code' : ByteString} : q.Uploading name code' ↔ code' = code := by
  constructor
  · rintro ⟨t, other, hother, hadd'⟩
    have howner := (h thread call name code hcall hadd).1
    cases howner.symm.trans (h t other name code' hother hadd').1
    cases hcall.symm.trans hother
    cases hadd.symm.trans hadd'
    rfl
  · rintro rfl
    exact ⟨thread, call, hcall, hadd⟩

omit [ScriptNames] in
theorem Locked.not_uploading_endCall (h : q.Locked) {call : PendingCall ScriptRequest}
    (hcall : q.calls thread = some call) (hadd : call.change = .addScript name code)
    (code' : ByteString) : ¬ (q.toRequests.endCall thread).Uploading name code' := by
  rintro ⟨t, other, hother, hadd'⟩
  obtain ⟨ht, hother⟩ := calls_endCall hother
  have howner := (h thread call name code hcall hadd).1
  cases howner.symm.trans (h t other name code' hother hadd').1
  exact ht rfl

omit [ScriptNames] in
theorem uploading_endCall_iff {call : PendingCall ScriptRequest}
    (hcall : q.calls thread = some call) (hadd : call.change.uploads name = none) :
    (q.toRequests.endCall thread).Uploading name code ↔ q.Uploading name code := by
  constructor
  · rintro ⟨t, other, hother, hadd'⟩
    exact ⟨t, other, (calls_endCall hother).2, hadd'⟩
  · rintro ⟨t, other, hother, hadd'⟩
    have ht : t ≠ thread := by
      rintro rfl
      cases hcall.symm.trans hother
      rw [ScriptRequest.uploads_eq_some_iff.mpr hadd'] at hadd
      cases hadd
    have hcalls : (q.toRequests.endCall thread).calls t = q.calls t := Function.update_of_ne ht _ _
    exact ⟨t, other, hcalls.trans hother, hadd'⟩

omit [ScriptNames] in
/-- Whoever executes requests is no thread in the middle of an upload. -/
theorem Locked.not_uploading (h : q.Locked) (howner : q.mMutex = none ∨ q.mMutex = some .worker)
    (code : ByteString) : ¬ q.Uploading name code := by
  rintro ⟨t, call, hcall, hadd⟩
  obtain ⟨hmutex, hworker, -⟩ := h t call name code hcall hadd
  rcases howner with hnone | hworkers
  · rw [hnone] at hmutex
    cases hmutex
  · rw [hworkers] at hmutex
    cases hmutex
    exact hworker rfl

omit [ScriptNames] in
theorem codes_concat (name : ByteString) (queue : List (Ticket ScriptRequest))
    (ticket : Ticket ScriptRequest) :
    codes name (queue ++ [ticket]) = codes name queue ++ (ticket.change.uploads name).toList := by
  unfold codes
  rw [List.filterMap_append, List.filterMap_cons]
  cases ticket.change.uploads name with
  | none => rfl
  | some code => rfl

omit [ScriptNames] in
/-- A request goes from a thread's hands to the end of a queue. -/
theorem Locked.settling_concat {waiting waiting' : List ByteString} {s : ScriptStore}
    (h : q.Locked) (hsettling : Settling waiting waiting' (q.Uploading name) s name)
    {call : PendingCall ScriptRequest} (hcall : q.calls thread = some call)
    (hjoins : ∀ code, call.change = .addScript name code → ∀ code' ∈ waiting', code = code') :
    Settling (waiting ++ (call.change.uploads name).toList) waiting'
      ((q.toRequests.endCall thread).Uploading name) s name := by
  cases huploads : call.change.uploads name with
  | none =>
      rw [Option.toList_none, List.append_nil]
      exact hsettling.congr_called fun code => uploading_endCall_iff hcall huploads
  | some code =>
      have hadd := ScriptRequest.uploads_eq_some_iff.mp huploads
      have hcalled : Settling waiting waiting' (· = code) s name :=
        hsettling.congr_called fun code' => (h.uploading_iff hcall hadd).symm
      exact hcalled.concat (hjoins code hadd) (h.not_uploading_endCall hcall hadd)

theorem Harmless.settled {change : ScriptRequest} (h : q.Harmless change)
    (hjs : ScriptNames.getFileExtension name = dotJs)
    (hchange : change = .deleteScript name ∨
      change = .deactivateScript name ∧ q.state.mScripts.lookup name ≠ none) : q.Settled name := by
  rcases hchange with rfl | ⟨rfl, hscript⟩
  · exact h hjs
  · exact h hjs hscript

/-- The first request of a queue is executed. -/
theorem settling_execute {waiting' : List ByteString} {called : ByteString → Prop} {s : ScriptStore}
    {ticket : Ticket ScriptRequest} {queue : List (Ticket ScriptRequest)}
    (hjs : ScriptNames.getFileExtension name = dotJs)
    (h : Settling (codes name (ticket :: queue)) waiting' called s name)
    (hsettled : ticket.change = .deleteScript name ∨
      ticket.change = .deactivateScript name ∧ s.mScripts.lookup name ≠ none →
        (∀ code, ¬ called code) ∧ codes name (ticket :: queue) = [] ∧ waiting' = []) :
    Settling (codes name queue) waiting' called (s.visit ticket.change) name := by
  cases huploads : ticket.change.uploads name with
  | none =>
      have hcodes : codes name (ticket :: queue) = codes name queue := List.filterMap_cons_none huploads
      rw [hcodes] at h hsettled
      exact h.visit huploads hsettled
  | some code =>
      have hcodes : codes name (ticket :: queue) = code :: codes name queue :=
        List.filterMap_cons_some huploads
      rw [hcodes] at h
      rw [ScriptRequest.uploads_eq_some_iff.mp huploads]
      exact h.addScript hjs

theorem Consistent.queues {action : RequestQueues.Action ScriptRequest} (h : q.Consistent)
    (hnew : ∀ thread change mode, action ≠ .call thread change mode)
    (hturn : q.InTurn (.queues action))
    (hstep : RequestQueues.Steps ScriptStore.visit q action q') : q'.Consistent := by
  refine ⟨h.locked.queues hnew hstep, fun name hjs => ?_⟩
  have hsettling := h.settling name hjs
  cases hstep with
  | lock => exact hsettling
  | unlock => exact hsettling
  | resetHolder => exact hsettling
  | call hidle => exact absurd rfl (hnew _ _ _)
  | @enqueue thread call hcall hmode =>
      have hjoins := hturn call hcall
      -- The recorded holder of the lock has the internal queue.
      unfold RequestQueues.enqueue
      split
      · next hholder =>
          show Settling (codes name (q.mQueueInternal ++ [call.ticket thread])) _ _ _ _
          rw [codes_concat]
          refine h.locked.settling_concat hsettling hcall fun code hadd => ?_
          rw [hadd] at hjoins
          exact (if_pos hholder).mp (hjoins hjs)
      · next hholder =>
          show Settling _ (codes name (q.mQueue ++ [call.ticket thread])) _ _ _
          rw [codes_concat]
          refine (h.locked.settling_concat hsettling.symm hcall fun code hadd => ?_).symm
          rw [hadd] at hjoins
          exact (if_neg hholder).mp (hjoins hjs)
  | @executeNow thread call hcall hmode hfree =>
      have hnone : ∀ code, ¬ q.Uploading name code := h.locked.not_uploading (.inl hfree)
      -- An upload is never executed at once: it is requested with the lock held.
      have hadd : call.change.uploads name = none := by
        rw [Option.eq_none_iff_forall_not_mem]
        intro code hcode
        have huploads := ScriptRequest.uploads_eq_some_iff.mp hcode
        exact hmode (h.locked thread call name code hcall huploads).2.2
      refine (hsettling.visit hadd fun hchange => ?_).congr_called fun code =>
        uploading_endCall_iff hcall hadd
      exact ⟨hnone, (hturn call hcall).settled hjs hchange⟩
  | @execute ticket mQueue hqueue howner hdraining =>
      have hnone : ∀ code, ¬ q.Uploading name code := h.locked.not_uploading (.inr howner)
      have hharmless := hturn ticket (by rw [hqueue]; rfl)
      have hswapped := hsettling.symm
      rw [hqueue] at hswapped
      refine (settling_execute hjs hswapped fun hchange => ?_).symm
      obtain ⟨hinternal, hempty⟩ := hharmless.settled hjs hchange
      exact ⟨hnone, hqueue ▸ hempty, hinternal⟩
  | processInternalQueue => exact hsettling
  | @executeInternal ticket mQueueInternal hqueue howner =>
      have hnone : ∀ code, ¬ q.Uploading name code := h.locked.not_uploading (.inr howner)
      have hharmless := hturn ticket (by rw [hqueue]; rfl)
      rw [hqueue] at hsettling
      refine settling_execute hjs hsettling fun hchange => ?_
      obtain ⟨hinternal, hempty⟩ := hharmless.settled hjs hchange
      exact ⟨hnone, hqueue ▸ hinternal, hempty⟩
  | drained => exact hsettling

omit [ScriptNames] in
theorem calls_call {r : Requests ScriptRequest} {change : ScriptRequest} {mode : RequestChangeMode}
    {call : PendingCall ScriptRequest} (hcall : (r.call thread change mode).calls t = some call) :
    t = thread ∧ call.change = change ∧ call.mode = mode ∨ r.calls t = some call := by
  by_cases ht : t = thread
  · subst ht
    have hself : (r.call t change mode).calls t = some ⟨r.made.length, change, mode⟩ :=
      Function.update_self _ _ _
    cases hself.symm.trans hcall
    exact .inl ⟨rfl, rfl, rfl⟩
  · exact .inr ((Function.update_of_ne ht _ _).symm.trans hcall)

/-- A thread begins an upload. -/
theorem Consistent.addScript (h : q.Consistent) (howner : q.mMutex = some thread)
    (hworker : thread ≠ .worker) (hidle : q.calls thread = none) :
    Consistent { q.setState (q.state.insertRow name code) with
      toRequests := q.toRequests.call thread (.addScript name code) .async } := by
  -- Whatever another thread is doing, it is not in the middle of an upload.
  have hothers : ∀ t call other code', q.calls t = some call →
      call.change ≠ .addScript other code' := by
    intro t call other code' hcall hadd
    cases howner.symm.trans (h.locked t call other code' hcall hadd).1
    rw [hidle] at hcall
    cases hcall
  constructor
  · intro t call other code' hcall hadd
    rcases calls_call hcall with ⟨rfl, -, hmode⟩ | hold
    · exact ⟨howner, hworker, hmode⟩
    · exact absurd hadd (hothers t call other code' hold)
  · intro other hjs
    have hsettling := h.settling other hjs
    have huploading : ∀ code',
        (q.toRequests.call thread (.addScript name code) .async).Uploading other code' →
          other = name ∧ code' = code := by
      rintro code' ⟨t, call, hcall, hadd⟩
      rcases calls_call hcall with ⟨rfl, hchange, -⟩ | hold
      · cases hchange.symm.trans hadd
        exact ⟨rfl, rfl⟩
      · exact absurd hadd (hothers t call other code' hold)
    by_cases hother : other = name
    · subst hother
      refine hsettling.insertRow.congr_called fun code' => ⟨fun hup => (huploading code' hup).2, ?_⟩
      rintro rfl
      exact ⟨thread, _, Function.update_self _ _ _, rfl⟩
    · have htable : (q.state.insertRow name code).table.lookup other = q.state.table.lookup other :=
        AList.lookup_insert_ne hother
      have hcalled : ∀ code',
          (q.toRequests.call thread (.addScript name code) .async).Uploading other code' ↔
            q.Uploading other code' :=
        fun code' => ⟨fun hup => absurd (huploading code' hup).1 hother,
          fun ⟨t, call, hcall, hadd⟩ => absurd hadd (hothers t call other code' hcall)⟩
      exact (hsettling.congr htable fun hagrees => hagrees.congr rfl htable).congr_called hcalled

/-- A request that is no upload is made. -/
theorem Consistent.call (h : q.Consistent) {change : ScriptRequest} {mode : RequestChangeMode}
    (hidle : q.calls thread = none) (hadd : ∀ name code, change ≠ .addScript name code) :
    Consistent { q with toRequests := q.toRequests.call thread change mode } := by
  constructor
  · intro t call name code hcall hup
    rcases calls_call hcall with ⟨-, hchange, -⟩ | hold
    · exact absurd (hchange.symm.trans hup) (hadd name code)
    · exact h.locked t call name code hold hup
  · intro name hjs
    refine (h.settling name hjs).congr_called fun code => ⟨?_, ?_⟩
    · rintro ⟨t, call, hcall, hup⟩
      rcases calls_call hcall with ⟨-, hchange, -⟩ | hold
      · exact absurd (hchange.symm.trans hup) (hadd name code)
      · exact ⟨t, call, hold, hup⟩
    · rintro ⟨t, call, hcall, hup⟩
      have ht : t ≠ thread := by
        rintro rfl
        rw [hidle] at hcall
        cases hcall
      have hcalls : (q.toRequests.call thread change mode).calls t = q.calls t :=
        Function.update_of_ne ht _ _
      exact ⟨t, call, hcalls.trans hcall, hup⟩

omit [ScriptNames] in
theorem lookup_initFails_of_ne {s : ScriptStore} {script : Script} {other : ByteString}
    (hother : other ≠ name) :
    (s.setScript name script.initFails).mScripts.lookup other = s.mScripts.lookup other :=
  AList.lookup_insert_ne hother

theorem Consistent.initFails (h : q.Consistent) {script : Script}
    (hscript : q.state.mScripts.lookup name = some script) :
    Consistent (q.setState (q.state.setScript name script.initFails)) := by
  refine ⟨h.locked, fun other hjs => (h.settling other hjs).congr rfl fun hagrees => ?_⟩
  by_cases hother : other = name
  · subst hother
    exact hagrees.initFails hscript
  · exact hagrees.congr (lookup_initFails_of_ne hother) rfl

theorem Consistent.step {action : Action} (h : q.Consistent) (hturn : q.InTurn action)
    (hstep : q.step action = some q') : q'.Consistent := by
  cases action with
  | addScript thread name code =>
      simp only [ScriptQueues.step, Option.ite_none_right_eq_some] at hstep
      obtain ⟨⟨-, howner, hworker⟩, hcall⟩ := hstep
      cases RequestQueues.steps_of_step hcall with
      | call hidle => exact h.addScript howner hworker hidle
  | requestChange thread change =>
      cases change with
      | addScript name code => cases hstep
      | deleteScript name | activateScript name | deactivateScript name =>
          have hcall : RequestQueues.step ScriptStore.visit q (.call thread _ _) = some q' := hstep
          cases RequestQueues.steps_of_step hcall with
          | call hidle => exact h.call hidle (by rintro _ _ ⟨⟩)
  | initFails name =>
      simp only [ScriptQueues.step] at hstep
      split at hstep
      · cases hstep
      · next script hscript =>
          cases hstep
          exact h.initFails hscript
  | queues action =>
      cases action with
      | call thread change mode => cases hstep
      | _ => exact h.queues (by rintro _ _ _ ⟨⟩) hturn (RequestQueues.steps_of_step hstep)

/-! ## Runs -/

/-- Where nothing waits, memory and database agree about all scripts, and a restart that
loads the rows of the table in any order brings back the scripts that were running. -/
structure Agreement (q : ScriptQueues) : Prop where
  agrees : ∀ name, ScriptNames.getFileExtension name = dotJs → q.state.Agrees name
  restored : ∀ name script, ScriptNames.getFileExtension name = dotJs →
    q.state.mScripts.lookup name = some script → script.mState = .running →
      ∀ rows, rows.Perm q.state.table.entries → ∃ restored,
        (q.state.restart rows).mScripts.lookup name = some restored ∧
          restored.mCode = script.mCode ∧ restored.mState = .running

/-- An upload begins and ends while its thread has the lock. -/
def AgreesAtRest (q : ScriptQueues) : Prop :=
  q.mQueue = [] → q.mQueueInternal = [] → q.mMutex = none → q.Agreement

/-- What runs has an active row. -/
theorem agreement_of_agrees
    (h : ∀ name, ScriptNames.getFileExtension name = dotJs → q.state.Agrees name) : q.Agreement where
  agrees := h
  restored := by
    intro name script hjs hscript hrunning rows hrows
    have hcode := (h name hjs).code
    rw [hscript] at hcode
    obtain ⟨row, hrow, hsame⟩ := Option.map_eq_some_iff.mp hcode.symm
    have hactive : row.active = true := by
      refine eq_true_of_ne_false fun hinactive => ?_
      exact (h name hjs).active script row hscript hrow hinactive hrunning
    obtain ⟨restored, hrestored, hfields⟩ :=
      Option.map_eq_some_iff.mp (q.state.lookup_restart hrows hjs hrow)
    obtain ⟨hcode, hstate⟩ := Prod.mk.inj hfields
    refine ⟨restored, hrestored, hcode.trans hsame, hstate.trans ?_⟩
    rw [hactive]
    rfl

theorem Consistent.agreesAtRest (h : q.Consistent) : q.AgreesAtRest := by
  intro hqueue hinternal hfree
  refine agreement_of_agrees fun name hjs => (h.settling name hjs).agrees ?_ ?_ ?_
  · exact h.locked.not_uploading (.inl hfree)
  · rw [hinternal]
    rfl
  · rw [hqueue]
    rfl

/-- After the scripts of a table have been loaded. -/
def initial (s : ScriptStore) (rows : List (Sigma fun _ : ByteString => ScriptRow)) : ScriptQueues :=
  RequestQueues.initial (s.restart rows)

theorem consistent_initial (s : ScriptStore) {rows : List (Sigma fun _ : ByteString => ScriptRow)}
    (hrows : rows.Perm s.table.entries) : (initial s rows).Consistent where
  locked := fun _ _ _ _ hcall => by cases hcall
  settling := fun _ hjs => .of_agrees (s.agrees_restart hrows hjs) (by rintro code ⟨_, _, ⟨⟩, _⟩)

/-- In every run in which no upload is overtaken, memory and database agree at rest. -/
theorem agreesAtRest_of_isRun {s : ScriptStore}
    {rows : List (Sigma fun _ : ByteString => ScriptRow)} (hrows : rows.Perm s.table.entries)
    {run : List (Action × ScriptQueues)}
    (hrun : Runs.IsRun (Runs.StepOf step) (initial s rows) run)
    (hturn : Runs.AllSteps InTurn (initial s rows) run) : Runs.AllStates AgreesAtRest run :=
  fun x hx => (hrun.invariant_of_allSteps (fun _ _ _ h hturn hstep => h.step hturn hstep)
    (consistent_initial s hrows) hturn x hx).agreesAtRest

/-! ### An upload that is overtaken -/

instance (q : ScriptQueues) (name : ByteString) : Decidable (q.Settled name) :=
  inferInstanceAs (Decidable (_ ∧ _))

instance (q : ScriptQueues) : DecidablePred q.Harmless
  | .deleteScript name =>
    inferInstanceAs (Decidable (ScriptNames.getFileExtension name = dotJs → q.Settled name))
  | .deactivateScript name =>
    inferInstanceAs (Decidable (ScriptNames.getFileExtension name = dotJs →
      q.state.mScripts.lookup name ≠ none → q.Settled name))
  | .addScript _ _ | .activateScript _ => isTrue trivial

instance (q : ScriptQueues) (thread : Thread) : DecidablePred (q.Joins thread)
  | .addScript name code =>
    inferInstanceAs (Decidable (ScriptNames.getFileExtension name = dotJs →
      if q.mCurrentRWHolderOfMMutex = some thread then ∀ code' ∈ codes name q.mQueue, code = code'
      else ∀ code' ∈ codes name q.mQueueInternal, code = code'))
  | .deleteScript _ | .activateScript _ | .deactivateScript _ => isTrue trivial

instance (q : ScriptQueues) : (action : Action) → Decidable (q.InTurn action)
  | .addScript _ _ _ | .requestChange _ _ | .initFails _ => isTrue trivial
  | .queues (.enqueue thread) =>
    inferInstanceAs (Decidable (∀ call ∈ q.calls thread, q.Joins thread call.change))
  | .queues (.executeNow thread) =>
    inferInstanceAs (Decidable (∀ call ∈ q.calls thread, q.Harmless call.change))
  | .queues .execute => inferInstanceAs (Decidable (∀ ticket ∈ q.mQueue.head?, q.Harmless ticket.change))
  | .queues .executeInternal =>
    inferInstanceAs (Decidable (∀ ticket ∈ q.mQueueInternal.head?, q.Harmless ticket.change))
  | .queues (.lock _) | .queues (.unlock _) | .queues .resetHolder | .queues (.call _ _ _)
  | .queues .processInternalQueue | .queues .drained => isTrue trivial

end

/-- The REST thread uploads a script. -/
def upload : List Action :=
  [.queues (.lock (.other 0)), .addScript (.other 0) nameOfScript [], .queues (.enqueue (.other 0)),
    .queues (.unlock (.other 0))]

/-- It deletes it. -/
def delete : List Action :=
  [.requestChange (.other 0) (.deleteScript nameOfScript), .queues (.enqueue (.other 0))]

/-- A round of the worker thread. -/
def workerRound (found : List (RequestQueues.Action ScriptRequest)) : List Action :=
  List.map Action.queues (.lock .worker :: found ++ [.drained, .unlock .worker, .resetHolder])

/-- The worker thread comes by between the two. -/
theorem agreesAtRest_uploadThenDelete :
    (Runs.runOf (@step .standard) (@initial .standard {} [])
        (upload ++ workerRound [.processInternalQueue, .executeInternal] ++ delete ++
          workerRound [.execute])).length = 17 ∧
      Runs.AllStates (@AgreesAtRest .standard)
        (Runs.runOf (@step .standard) (@initial .standard {} [])
          (upload ++ workerRound [.processInternalQueue, .executeInternal] ++ delete ++
            workerRound [.execute])) :=
  ⟨by decide +kernel, @agreesAtRest_of_isRun .standard {} [] (List.Perm.refl _) _
    (Runs.isRun_runOf _ _ _) (by decide +kernel)⟩

/-- If it comes by after both, the row of the script is gone and the script stays. -/
theorem not_agreesAtRest_uploadAndDelete :
    ∃ run, Runs.IsRun (Runs.StepOf (@step .standard)) (@initial .standard {} []) run ∧
      ¬ Runs.AllStates (@AgreesAtRest .standard) run := by
  refine ⟨_, Runs.isRun_runOf (@step .standard) _
    (upload ++ delete ++ workerRound [.execute, .executeInternal]), fun h => ?_⟩
  have hsame : Runs.AllStates (fun q : ScriptQueues =>
      q.mQueue = [] → q.mQueueInternal = [] → q.mMutex = none →
        (q.state.mScripts.lookup nameOfScript).map Script.mCode =
          (q.state.table.lookup nameOfScript).map ScriptRow.code) _ :=
    fun x hx hqueue hinternal hfree =>
      (@Agreement.agrees .standard _ (h x hx hqueue hinternal hfree) nameOfScript (by decide)).code
  revert hsame
  decide +kernel

end ScriptQueues

end NioevMqtt
