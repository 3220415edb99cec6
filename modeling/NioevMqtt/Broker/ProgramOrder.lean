-- SUMMARY: Over every run of the threads every change request is executed once, and those of a thread in the order in which it made them as long as they take their turn.
import NioevMqtt.Broker.ChangeRequests

/-!
# The order of change requests

Two queues and the execution at once are three ways for a request, and a request on
one of them may overtake another of the same thread. It cannot where the thread
keeps to a way as long as it has requests waiting on it.
-/

namespace NioevMqtt

namespace RequestQueues

variable {ρ σ : Type} {visit : σ → ρ → σ} {q : RequestQueues ρ σ} {thread : Thread}

def SameThread (t t' : Ticket ρ) : Prop := t.thread = t'.thread

instance : DecidableRel (SameThread : Ticket ρ → Ticket ρ → Prop) :=
  fun t t' => inferInstanceAs (Decidable (t.thread = t'.thread))

def ofThread (thread : Thread) (ticket : Ticket ρ) : Bool := ticket.thread = thread

theorem ofThread_iff {ticket : Ticket ρ} : ofThread thread ticket = true ↔ ticket.thread = thread :=
  decide_eq_true_iff

theorem madeBy_ofThread (thread : Thread) : Requests.MadeBy (ρ := ρ) (ofThread thread) thread :=
  fun _ hticket => ofThread_iff.mp hticket

theorem sameThread_of_ofThread {t t' : Ticket ρ} (h : ofThread thread t = true)
    (h' : ofThread thread t' = true) : SameThread t t' :=
  (ofThread_iff.mp h).trans (ofThread_iff.mp h').symm

/-- Of the requests a thread has made the first ones have been executed, in their
order. -/
def InProgramOrder (q : RequestQueues ρ σ) : Prop :=
  ∀ thread, q.executed.filter (ofThread thread) <+: q.made.filter (ofThread thread)

/-- No request is executed twice, and all are unless they still wait. -/
structure ExecutesOnce (q : RequestQueues ρ σ) : Prop where
  once : q.executed.Nodup
  requested : ∀ ticket ∈ q.executed, ticket ∈ q.made
  all : q.mQueue = [] → q.mQueueInternal = [] → (∀ thread, q.calls thread = none) →
    ∀ ticket ∈ q.made, ticket ∈ q.executed

/-! ## From one thread to all -/

/-- A list without repetitions of any one thread has none. -/
theorem nodup_of_filter {l : List (Ticket ρ)} (h : ∀ thread, (l.filter (ofThread thread)).Nodup) :
    l.Nodup := by
  refine List.nodup_iff_sublist.mpr fun ticket htwice => ?_
  have hkept : [ticket, ticket].filter (ofThread ticket.thread) = [ticket, ticket] :=
    List.filter_eq_self.mpr fun t ht => ofThread_iff.mpr (by
      rcases List.mem_pair.mp ht with rfl | rfl
      · rfl
      · rfl)
  exact List.nodup_iff_sublist.mp (h ticket.thread) ticket
    (hkept ▸ htwice.filter (ofThread ticket.thread))

theorem mem_filter_ofThread {l : List (Ticket ρ)} {ticket : Ticket ρ} :
    ticket ∈ l.filter (ofThread ticket.thread) ↔ ticket ∈ l := by
  rw [List.mem_filter, ofThread_iff]
  exact and_iff_left rfl

theorem executesOnce (hnumbered : Numbered q.toRequests)
    (h : ∀ thread, q.toRequests.Accounted (ofThread thread) thread) : q.ExecutesOnce := by
  have hplaces : ∀ thread, ((q.everywhere thread).filter (ofThread thread)).Nodup :=
    fun thread => (h thread).nodup_iff.mp (hnumbered.nodup.filter _)
  have hexecuted : ∀ thread, q.executed.Sublist (q.everywhere thread) := fun thread => by
    unfold Requests.everywhere
    rw [List.append_assoc, List.append_assoc]
    exact List.sublist_append_left _ _
  refine ⟨nodup_of_filter fun thread => ?_, fun ticket hticket => ?_, ?_⟩
  · exact (hplaces thread).sublist ((hexecuted thread).filter _)
  · have hmem := (hexecuted ticket.thread).subset hticket
    exact mem_filter_ofThread.mp ((h ticket.thread).mem_iff.mpr (mem_filter_ofThread.mpr hmem))
  · intro hqueue hinternal hcalls ticket hticket
    have hmem := mem_filter_ofThread.mp
      ((h ticket.thread).mem_iff.mp (mem_filter_ofThread.mpr hticket))
    rw [Requests.everywhere, hqueue, hinternal, Requests.called_of_none (hcalls _)] at hmem
    simpa only [List.append_nil] using hmem

theorem inProgramOrder (h : ∀ thread, q.toRequests.InTurn (ofThread thread) thread) :
    q.InProgramOrder := by
  intro thread
  rw [(h thread).inOrder, Requests.filter_everywhere, List.append_assoc, List.append_assoc]
  exact List.prefix_append _ _

/-- Over every run: every request is executed exactly once, and those of a thread in
the order in which they were made, if they take their turn. -/
theorem programOrder_of_isRun {state : σ} {run : List (Action ρ × RequestQueues ρ σ)}
    (hrun : Runs.IsRun (Runs.StepOf (step visit)) (initial state) run) :
    Runs.AllStates ExecutesOnce run ∧
      (Runs.AllSteps (TakesTurn SameThread) (initial state) run →
        Runs.AllStates InProgramOrder run) := by
  refine ⟨fun x hx => executesOnce (numbered_of_isRun hrun x hx) fun thread => ?_,
    fun hturn x hx => inProgramOrder fun thread => ?_⟩
  · exact accounted_of_isRun hrun (madeBy_ofThread thread) x hx
  · exact inTurn_of_isRun hrun (madeBy_ofThread thread) (fun _ _ => sameThread_of_ofThread) hturn x hx

end RequestQueues

/-! ## Scripts -/

/-- The requests about scripts. -/
inductive ScriptRequest where
  | addScript (name code : ByteString)
  | deleteScript (name : ByteString)
  | activateScript (name : ByteString)
  | deactivateScript (name : ByteString)
deriving DecidableEq, Repr

namespace ScriptRequest

open RequestQueues

/-- The steps of a thread that makes requests about scripts only. -/
def step : RequestQueues ScriptRequest Unit → Action ScriptRequest →
    Option (RequestQueues ScriptRequest Unit) :=
  RequestQueues.step fun _ _ => ()

/-- A round of the worker thread in which it finds one request in each queue it has to look at. -/
def workerRound (found : List (Action ScriptRequest)) : List (Action ScriptRequest) :=
  [.lock .worker] ++ found ++ [.drained, .unlock .worker, .resetHolder]

/-- A script is uploaded, paused and deleted, and the worker thread keeps up. -/
def uploadPauseDelete : List (Action ScriptRequest) :=
  Action.addScript (.other 0) (.addScript [0x61] []) ++
    workerRound [.processInternalQueue, .executeInternal] ++
    Action.requestSync (.other 0) (.deactivateScript [0x61]) .sync ++
    Action.requestAsync (.other 0) (.deleteScript [0x61]) .async ++ workerRound [.execute]

theorem programOrder_uploadPauseDelete :
    (Runs.runOf step (initial ()) uploadPauseDelete).length = 20 ∧
      Runs.AllStates ExecutesOnce (Runs.runOf step (initial ()) uploadPauseDelete) ∧
      Runs.AllStates InProgramOrder (Runs.runOf step (initial ()) uploadPauseDelete) := by
  obtain ⟨honce, horder⟩ := programOrder_of_isRun (Runs.isRun_runOf step (initial ()) uploadPauseDelete)
  exact ⟨by decide +kernel, honce, horder (by decide +kernel)⟩

/-- An uploaded script is deleted before the worker thread comes by: it is deleted
first, since uploads wait in the other queue. -/
theorem not_inProgramOrder_uploadDelete :
    ∃ run, Runs.IsRun (Runs.StepOf step) (initial ()) run ∧ ¬ Runs.AllStates InProgramOrder run := by
  refine ⟨_, Runs.isRun_runOf step _ (Action.addScript (.other 0) (.addScript [0x61] []) ++
    Action.requestAsync (.other 0) (.deleteScript [0x61]) .async ++
    workerRound [.execute, .executeInternal]), fun h => ?_⟩
  have hfirst : Runs.AllStates (fun q : RequestQueues ScriptRequest Unit =>
      q.executed.filter (ofThread (.other 0)) <+: q.made.filter (ofThread (.other 0))) _ :=
    fun x hx => h x hx (.other 0)
  revert hfirst
  decide +kernel

end ScriptRequest

end NioevMqtt
