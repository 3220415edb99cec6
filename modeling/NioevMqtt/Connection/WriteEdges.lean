-- SUMMARY: The edge-triggered write side of a connection: packets are left behind only after a short write, exactly when no flush has more packets than it offers.
import NioevMqtt.Connection.SendQueue

/-!
# Write edges

The socket is registered with `EPOLLET`: the kernel reports again that it is
writable only after it has taken less than it was offered. `sendScatter` offers
no more than a quarter of `UIO_MAXIOV` packets, and the `EPOLLOUT` branch calls it
once.
-/

namespace NioevMqtt

/-- Fewer bytes were accepted than the `size` offered. -/
def SendmsgResult.Short (size : Nat) : SendmsgResult → Prop
  | .accepted n => n < size
  | .wouldBlock => True
  | .failed => False

instance (size : Nat) (result : SendmsgResult) : Decidable (result.Short size) := by
  unfold SendmsgResult.Short
  split <;> infer_instance

instance (size : Nat) (result : SendmsgResult) : Decidable (result.Admits size) := by
  unfold SendmsgResult.Admits
  split <;> infer_instance

/-- How many bytes one `sendScatter` on the packets offers. -/
def offeredSize (packets : List InTransitEncodedPacket) : Nat :=
  ((packets.take (UIO_MAXIOV / 4)).map fun p => p.packet.offeredLength p.offset).sum

/-- The send side of a connection, and whether the last `sendmsg` was short. -/
structure WriteState where
  send : SendState := {}
  short : Bool := false

namespace WriteState

/-! The bytes `constructIOVecs` presents for a packet from an offset on. -/
variable (present : EncodedPacket → Nat → List UInt8)

/-- A send or a flush, where it sends with an answer that is not a failure. -/
def step (w : WriteState) (op : SendOp) : Option WriteState :=
  if op.offers w.send ≠ [] → op.result.Admits (offeredSize (op.offers w.send)) then
    some
      { send := op.run present w.send
        short :=
          if op.offers w.send = [] then w.short
          else op.result.Short (offeredSize (op.offers w.send)) }
  else none

/-- Queued packets wait for an edge that is to come. -/
def AwaitsEdge (w : WriteState) : Prop := w.send.mSendTasks ≠ [] → w.short = true

/-- The step offers all its packets, or not all that it offers is taken. Only a flush
has more packets than one. -/
def Drains (w : WriteState) (op : SendOp) : Prop :=
  (op.offers w.send).length ≤ UIO_MAXIOV / 4 ∨ op.result.Short (offeredSize (op.offers w.send))

instance (w : WriteState) : Decidable w.AwaitsEdge := inferInstanceAs (Decidable (_ → _))

instance (w : WriteState) (op : SendOp) : Decidable (w.Drains op) :=
  inferInstanceAs (Decidable (_ ∨ _))

/-! ## One scatter send -/

open InTransitEncodedPacket (remaining isDone length_remaining)

theorem offeredSize_eq {q : List InTransitEncodedPacket} (hq : OnlyHeadStarted q) :
    offeredSize q = ((q.take (UIO_MAXIOV / 4)).map remaining).flatten.length := by
  rw [List.length_flatten, List.map_map]
  unfold offeredSize
  refine congrArg List.sum (List.map_congr_left fun p hp => ?_)
  show p.packet.offeredLength p.offset = p.remaining.length
  rw [length_remaining]
  exact EncodedPacket.offeredLength_eq (hq.pending p (List.mem_of_mem_take hp))

/-- The count of all bytes of the packets finishes all of them. -/
theorem isDone_advanceOffsets (q : List InTransitEncodedPacket) :
    ∀ p ∈ (advanceOffsets q (q.map remaining).flatten.length).1, p.isDone = true := by
  induction q with
  | nil => exact fun p hp => by cases hp
  | cons p q ih =>
      have hle : p.packet.fullSize - p.offset ≤ ((p :: q).map remaining).flatten.length := by
        rw [List.map_cons, List.flatten_cons, List.length_append, length_remaining]
        exact Nat.le_add_right _ _
      have hrest : ((p :: q).map remaining).flatten.length - (p.packet.fullSize - p.offset) =
          (q.map remaining).flatten.length := by
        rw [List.map_cons, List.flatten_cons, List.length_append, length_remaining]
        exact Nat.add_sub_cancel_left _ _
      rw [advanceOffsets, if_pos hle, hrest]
      intro p' hp'
      rcases List.mem_cons.mp hp' with rfl | hp'
      · exact decide_eq_true le_rfl
      · exact ih p' hp'

theorem offeredSize_pos {q : List InTransitEncodedPacket} (hq : OnlyHeadStarted q)
    (hne : q ≠ []) : 0 < offeredSize q := by
  cases q with
  | nil => exact absurd rfl hne
  | cons p q =>
      have hp : p.offset < p.packet.fullSize := hq.pending p List.mem_cons_self
      have hoffered : 0 < p.packet.offeredLength p.offset := by
        rw [EncodedPacket.offeredLength_eq hp]
        exact Nat.sub_pos_of_lt hp
      exact Nat.lt_of_lt_of_le hoffered (Nat.le_add_right _ _)

theorem sendScatter_ok {q : List InTransitEncodedPacket} (hq : OnlyHeadStarted q)
    {result : SendmsgResult} (hresult : result.Admits (offeredSize q)) :
    ∃ sent, sendScatter q result = .ok (0, sent) ∧ sent.length = q.length ∧
      OnlyHeadStarted (sent.dropWhile isDone) := by
  cases result with
  | failed => exact hresult.elim
  | wouldBlock =>
      refine ⟨q, rfl, rfl, ?_⟩
      rwa [hq.dropWhile_isDone]
  | accepted n =>
      obtain ⟨hpos, hle⟩ := hresult
      rw [offeredSize_eq hq] at hle
      exact ⟨_, SendState.sendScatter_accepted hq hpos hle, length_advanceOffsets q n, hq.advanceOffsets n⟩

/-- Where all is taken that was offered, the packets that were not offered are left. -/
theorem sendScatter_all {q : List InTransitEncodedPacket} (hq : OnlyHeadStarted q)
    (hne : q ≠ []) :
    ∃ sent, sendScatter q (.accepted (offeredSize q)) = .ok (0, sent) ∧
      sent.dropWhile isDone = q.drop (UIO_MAXIOV / 4) := by
  have hsize := offeredSize_eq hq
  refine ⟨_, SendState.sendScatter_accepted hq (offeredSize_pos hq hne) hsize.le, ?_⟩
  have hbehind : ∀ p ∈ q.drop (UIO_MAXIOV / 4), p.offset < p.packet.fullSize :=
    fun p hp => hq.pending p (List.mem_of_mem_drop hp)
  have hsplit := advanceOffsets_append (q.drop (UIO_MAXIOV / 4)) hsize.le hbehind
  rw [List.take_append_drop] at hsplit
  rw [hsplit, hsize, List.dropWhile_append_of_pos (isDone_advanceOffsets _)]
  cases hrest : q.drop (UIO_MAXIOV / 4) with
  | nil => rfl
  | cons p behind =>
      have hp : p ∈ q := List.mem_of_mem_drop (by rw [hrest]; exact List.mem_cons_self)
      apply List.dropWhile_cons_of_neg
      rw [hq.not_isDone hp]
      exact Bool.false_ne_true

/-- A send that does not fail is short, or takes all that is offered. -/
theorem short_or_all {result : SendmsgResult} {size : Nat} (h : result.Admits size) :
    result.Short size ∨ result = .accepted size := by
  cases result with
  | failed => exact h.elim
  | wouldBlock => exact .inl trivial
  | accepted n =>
      rcases Nat.lt_or_eq_of_le h.2 with hlt | rfl
      · exact .inl hlt
      · exact .inr rfl

/-! ## Steps -/

/-- All that a step can do to the queue. -/
inductive Writes (w : WriteState) (op : SendOp) (w' : WriteState) : Prop
  | waits (packet : EncodedPacket) (hne : w.send.mSendTasks ≠ []) (hoffers : op.offers w.send = [])
      (htasks : w'.send.mSendTasks = w.send.mSendTasks ++ [{ packet := packet }])
      (hshort : w'.short = w.short)
  | idle (hoffers : op.offers w.send = []) (htasks : w'.send.mSendTasks = w.send.mSendTasks)
      (hshort : w'.short = w.short)
  | sends {sent : List InTransitEncodedPacket} (hq : OnlyHeadStarted (op.offers w.send))
      (hne : op.offers w.send ≠ []) (hadmits : op.result.Admits (offeredSize (op.offers w.send)))
      (hsend : sendScatter (op.offers w.send) op.result = .ok (0, sent))
      (htasks : w'.send.mSendTasks = sent.dropWhile isDone)
      (hshort : w'.short = decide (op.result.Short (offeredSize (op.offers w.send))))

variable {present : EncodedPacket → Nat → List UInt8} {w w' : WriteState} {op : SendOp}

theorem writes_of_step (hq : OnlyHeadStarted w.send.mSendTasks) (hstep : step present w op = some w') :
    Writes w op w' := by
  obtain ⟨hadmits, hstep⟩ := Option.ite_none_right_eq_some.mp hstep
  cases hstep
  cases op with
  | sendData packet result =>
      by_cases hempty : w.send.mSendTasks = []
      · have hoffers : (SendOp.sendData packet result).offers w.send = [{ packet := packet }] := by
          simp [SendOp.offers, hempty]
        have hne : (SendOp.sendData packet result).offers w.send ≠ [] := by
          rw [hoffers]
          exact List.cons_ne_nil _ _
        have hfresh : OnlyHeadStarted ((SendOp.sendData packet result).offers w.send) := by
          rw [hoffers]
          exact OnlyHeadStarted.nil.append_fresh packet
        obtain ⟨sent, hsend, hlen, -⟩ := sendScatter_ok hfresh (hadmits hne)
        refine .sends hfresh hne (hadmits hne) hsend ?_ (if_neg hne)
        rw [hoffers] at hsend hlen
        obtain ⟨p, rfl⟩ := List.length_eq_one_iff.mp hlen
        exact congrArg SendState.mSendTasks (SendState.sendData_sent hempty hsend)
      · have hoffers : (SendOp.sendData packet result).offers w.send = [] := by
          simp [SendOp.offers, hempty]
        exact .waits packet hempty hoffers
          (congrArg SendState.mSendTasks (SendState.sendData_queued hempty packet result))
          (if_pos hoffers)
  | flush state result =>
      by_cases hempty : w.send.mSendTasks = []
      · refine .idle hempty ?_ (if_pos hempty)
        show (w.send.flushSendTasks present state result).1.mSendTasks = _
        simp only [SendState.flushSendTasks, hempty, List.isEmpty_nil, if_true]
      · obtain ⟨sent, hsend, -, -⟩ := sendScatter_ok hq (hadmits hempty)
        exact .sends hq hempty (hadmits hempty) hsend
          (congrArg SendState.mSendTasks (SendState.flushSendTasks_sent hempty hsend))
          (if_neg hempty)

theorem onlyHeadStarted_step (hq : OnlyHeadStarted w.send.mSendTasks)
    (hstep : step present w op = some w') : OnlyHeadStarted w'.send.mSendTasks := by
  cases writes_of_step hq hstep with
  | waits packet hne hoffers htasks =>
      rw [htasks]
      exact hq.append_fresh packet
  | idle hoffers htasks =>
      rw [htasks]
      exact hq
  | sends hq' hne hadmits hsend htasks =>
      obtain ⟨sent, hsend', -, hsent⟩ := sendScatter_ok hq' hadmits
      rw [hsend] at hsend'
      cases hsend'
      rw [htasks]
      exact hsent

/-- A step leaves packets behind without an edge to come exactly when it has more
packets than it offers, and all that it offers is taken. -/
theorem awaitsEdge_step_iff (hq : OnlyHeadStarted w.send.mSendTasks) (h : w.AwaitsEdge)
    (hstep : step present w op = some w') : w'.AwaitsEdge ↔ w.Drains op := by
  unfold AwaitsEdge Drains
  cases writes_of_step hq hstep with
  | waits packet hne hoffers htasks hshort =>
      refine iff_of_true (fun _ => hshort.trans (h hne)) (.inl ?_)
      rw [hoffers]
      exact Nat.zero_le _
  | idle hoffers htasks hshort =>
      refine iff_of_true (fun hne => hshort.trans (h (htasks ▸ hne))) (.inl ?_)
      rw [hoffers]
      exact Nat.zero_le _
  | sends hq' hne hadmits hsend htasks hshort =>
      rcases short_or_all hadmits with hpart | hall
      · exact iff_of_true (fun _ => hshort.trans (decide_eq_true hpart)) (.inr hpart)
      · obtain ⟨sent, hsend', hrest⟩ := sendScatter_all hq' hne
        rw [hall, hsend'] at hsend
        cases hsend
        have hnot : ¬ op.result.Short (offeredSize (op.offers w.send)) := by
          rw [hall]
          exact Nat.lt_irrefl _
        rw [htasks, hrest, hshort, decide_eq_false hnot, or_iff_left hnot, ← List.drop_eq_nil_iff]
        exact ⟨fun himp => Classical.byContradiction fun hleft => Bool.false_ne_true (himp hleft),
          fun hnil hleft => absurd hnil hleft⟩

/-! ## Runs -/

/-- Over every run of sends and flushes none of which fails: packets are queued only
after a short write, exactly when no flush leaves out packets while all that it offers
is taken. -/
theorem awaitsEdge_iff_drains {run : List (SendOp × WriteState)}
    (hrun : Runs.IsRun (Runs.StepOf (step present)) {} run) :
    Runs.AllStates AwaitsEdge run ↔ Runs.AllSteps Drains {} run :=
  hrun.allStates_iff_allSteps
    (fun _ _ _ hq _ _ hstep => onlyHeadStarted_step hq hstep)
    (fun _ _ _ hq h hstep => awaitsEdge_step_iff hq h hstep)
    OnlyHeadStarted.nil (fun hne => absurd rfl hne)

/-! ## A queue longer than one flush -/

/-- The first packet does not fit in the socket, and `n` more come after it. -/
def fill (n : Nat) : List SendOp :=
  .sendData (.fromFirstByte 0xD0) .wouldBlock ::
    List.replicate n (.sendData (.fromFirstByte 0xD0) .wouldBlock)

/-- The entries as `constructIOVecs` fills them in, for packets without an identifier. -/
def presentRest (p : EncodedPacket) (offset : Nat) : List UInt8 := p.wireBytes.drop offset

theorem awaitsEdge_fill :
    (Runs.runOf (step presentRest) {} (fill 255 ++ [.flush .connected (.accepted 512)])).length = 257 ∧
      Runs.AllStates AwaitsEdge
        (Runs.runOf (step presentRest) {} (fill 255 ++ [.flush .connected (.accepted 512)])) :=
  ⟨by decide +kernel, (awaitsEdge_iff_drains (Runs.isRun_runOf _ _ _)).mpr (by decide +kernel)⟩

/-- One packet more, and it is left behind after all of the others were taken. -/
theorem not_awaitsEdge_fill :
    ∃ run, Runs.IsRun (Runs.StepOf (step presentRest)) {} run ∧ ¬ Runs.AllStates AwaitsEdge run := by
  refine ⟨_, Runs.isRun_runOf (step presentRest) _
    (fill 256 ++ [.flush .connected (.accepted 512)]), ?_⟩
  decide +kernel

end WriteState

end NioevMqtt
