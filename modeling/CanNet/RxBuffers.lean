import CanNet.Lib.Mailbox
import CanNet.Node

/-!
# CanNet.RxBuffers

The dedicated Rx buffers over whole runs.

Each buffer is a mailbox: the hardware puts, the handler takes. The scan takes from the lowest
flagged buffer and then ends, because the loop that prints the bytes runs the shared index past
the last buffer, while the one interrupt flag of all buffers is cleared before the scan.
-/

namespace CanNet

open Bits

def flagged (s : Node) (k : Nat) : Bool := mcanRxGetBufferStatus s.mcan.newData k

def mailLog (k : Nat) (trace : List Obs) : List (MailEvent McanRxElement) :=
  trace.filterMap fun o =>
    match o with
    | .stored (.buffer j) e => if j = k then some (.put e) else none
    | .copied (.buffer j) e _ _ => if j = k then some (.take e) else none
    | _ => none

@[simp] theorem mailLog_append (k : Nat) (t u : List Obs) :
    mailLog k (t ++ u) = mailLog k t ++ mailLog k u := List.filterMap_append

/-- With no Rx buffer interrupt pending, no configured buffer is flagged, and what was copied out
of each is what was stored into it and not overwritten there. -/
def BuffersDelivered (s : Node) : Prop :=
  has s.mcan.ir mcanRxBufferNewMessage = false → ∀ k, k < confMcan1RxBufferNum →
    flagged s k = false ∧
      Mailbox.takes (mailLog k s.trace) = Mailbox.survivors (mailLog k s.trace)

/-- No handler run that answers the Rx buffer interrupt finds two buffers flagged. -/
def OneFlagged (s : Node) : NodeEvent → Prop
  | .handler => has s.mcan.ir mcanRxBufferNewMessage = true →
      ∀ j k, j < confMcan1RxBufferNum → k < confMcan1RxBufferNum →
        flagged s j = true → flagged s k = true → j = k
  | _ => True

/-! ## What the rest of the node leaves alone -/

/-- Nothing about the Rx buffers differs. -/
structure BufSame (s t : Node) : Prop where
  hw : t.hw = s.hw
  newData : t.mcan.newData = s.mcan.newData
  rxBuffer : t.mcan.rxBuffer = s.mcan.rxBuffer
  mail : ∀ k, mailLog k t.trace = mailLog k s.trace

theorem BufSame.refl (s : Node) : BufSame s s := ⟨rfl, rfl, rfl, fun _ => rfl⟩

theorem BufSame.trans {s t u : Node} (h : BufSame s t) (k : BufSame t u) : BufSame s u where
  hw := k.hw.trans h.hw
  newData := k.newData.trans h.newData
  rxBuffer := k.rxBuffer.trans h.rxBuffer
  mail i := (k.mail i).trans (h.mail i)

/-- Observations that are not about an Rx buffer leave its log as it is. -/
theorem BufSame.of_emit {s t : Node} {o : Obs} (htrace : t.trace = s.trace ++ [o])
    (hmail : ∀ k, mailLog k [o] = []) (hw : t.hw = s.hw)
    (hnewData : t.mcan.newData = s.mcan.newData) (hrxBuffer : t.mcan.rxBuffer = s.mcan.rxBuffer) :
    BufSame s t where
  hw := hw
  newData := hnewData
  rxBuffer := hrxBuffer
  mail k := by rw [htrace, mailLog_append, hmail, List.append_nil]

theorem bufSame_fifo0Branch (s : Node) : BufSame s (fifo0Branch s) :=
  .of_emit rfl (fun _ => rfl) rfl rfl rfl

theorem bufSame_fifo1Branch (s : Node) : BufSame s (fifo1Branch s) :=
  .of_emit rfl (fun _ => rfl) rfl rfl rfl

theorem bufSame_protocolErrorBranch (s : Node) : BufSame s (protocolErrorBranch s) :=
  .of_emit rfl (fun _ => rfl) rfl rfl rfl

theorem bufSame_busOffBranch {s : Node} (h : s.hw = .mcan1) : BufSame s (busOffBranch s) := by
  obtain ⟨_, _, _, hm⟩ := busOffBranch_mcan s
  exact .of_emit (busOffBranch_trace s) (fun _ => rfl) h.symm (by rw [hm]) (by rw [hm])

/-- After the first branch the handler leaves the Rx buffers alone. -/
theorem bufSame_handler {s : Node} (h : s.hw = .mcan1) :
    BufSame (guarded (has s.mcan.ir mcanRxBufferNewMessage) rxBufferBranch s)
      (mcan1Int0Handler s) := by
  rw [mcan1Int0Handler_eq]
  have hw1 := (guarded_rxBufferBranch_keeps h (has s.mcan.ir mcanRxBufferNewMessage)).1
  generalize guarded (has s.mcan.ir mcanRxBufferNewMessage) rxBufferBranch s = s1 at hw1 ⊢
  refine guarded_keeps (Q := BufSame s1) ?_ fun _ t ht =>
    ht.trans (bufSame_busOffBranch (ht.hw.trans hw1))
  refine guarded_keeps (Q := BufSame s1) ?_ fun _ t ht =>
    ht.trans (bufSame_protocolErrorBranch t)
  refine guarded_keeps (Q := BufSame s1) ?_ fun _ t ht => ht.trans (bufSame_fifo1Branch t)
  exact guarded_keeps (Q := BufSame s1) (BufSame.refl s1) fun _ t ht =>
    ht.trans (bufSame_fifo0Branch t)

/-! ## The invariant -/

/-- A flagged buffer holds the last stored frame, still to be taken; every other one is empty.
Without the interrupt flag no buffer is flagged. -/
structure BufferInv (s : Node) : Prop where
  hw : s.hw = .mcan1
  box : ∀ k, k < confMcan1RxBufferNum →
    Mailbox.replay none (mailLog k s.trace) =
      some (if flagged s k then some (s.mcan.rxBuffer k) else none)
  quiet : has s.mcan.ir mcanRxBufferNewMessage = false →
    ∀ k, k < confMcan1RxBufferNum → flagged s k = false

theorem BufferInv.delivered {s : Node} (h : BufferInv s) : BuffersDelivered s := by
  intro hir k hk
  have hflag := h.quiet hir k hk
  have hbox := h.box k hk
  rw [hflag] at hbox
  exact ⟨hflag, Mailbox.delivered hbox⟩

theorem BufferInv.of_same {s t : Node} (h : BufferInv s) (hs : BufSame s t)
    (hir : has t.mcan.ir mcanRxBufferNewMessage = has s.mcan.ir mcanRxBufferNewMessage) :
    BufferInv t where
  hw := hs.hw.trans h.hw
  box k hk := by
    rw [hs.mail, flagged, hs.newData, hs.rxBuffer]
    exact h.box k hk
  quiet ht k hk := by
    rw [flagged, hs.newData]
    exact h.quiet (hir.symm.trans ht) k hk

theorem BufferInv.store {s : Node} (h : BufferInv s) (k : Fin confMcan1RxBufferNum)
    (e : McanRxElement) :
    BufferInv ((s.onMcan (Mcan.storeRxBuffer k e)).emit (.stored (.buffer k) e)) where
  hw := h.hw
  box j hj := by
    have hk : (k : Nat) < 32 := Nat.lt_of_lt_of_le k.isLt (by decide)
    have hj' : j < 32 := Nat.lt_of_lt_of_le hj (by decide)
    have hbox := h.box j hj
    simp only [flagged, Node.emit_mcan, Node.onMcan_mcan, mcanRxGetBufferStatus_store _ _ hk hj',
      Node.emit_trace, Node.onMcan_trace, mailLog_append, Mailbox.replay_append, hbox]
    by_cases hjk : j = k
    · subst hjk
      simp [mailLog, Mailbox.replay, Mcan.storeRxBuffer]
    · have hkj : ¬ (k : Nat) = j := fun h => hjk h.symm
      simp [mailLog, Mailbox.replay, Mcan.storeRxBuffer, hjk, hkj]
      rfl
  quiet hir := by
    have : has (s.mcan.ir ||| mcanRxBufferNewMessage) mcanRxBufferNewMessage = true :=
      has_or_self (by decide)
    rw [show has (s.mcan.ir ||| mcanRxBufferNewMessage) mcanRxBufferNewMessage = false from hir]
      at this
    cases this

/-- The branch serves the lowest flagged buffer, if any, and clears its flag. -/
theorem rxBufferBranch_cases {s : Node} (h : s.hw = .mcan1) :
    ((∀ j, j < confMcan1RxBufferNum → flagged s j = false) ∧ BufSame s (rxBufferBranch s)) ∨
    ∃ k, k < confMcan1RxBufferNum ∧ flagged s k = true ∧
      (rxBufferBranch s).hw = .mcan1 ∧
      (∀ j, flagged (rxBufferBranch s) j = (flagged s j && decide (j ≠ k))) ∧
      (rxBufferBranch s).mcan.rxBuffer = s.mcan.rxBuffer ∧
      (rxBufferBranch s).trace = s.trace ++ [bufferReport s.mcan k] := by
  rw [rxBufferBranch_eq h]
  rcases rxBufferScan_cases s.mcan.newData with ⟨hnone, hscan⟩ | ⟨k, hk, hflag, hscan⟩
  · left
    refine ⟨hnone, rfl, ?_, rfl, fun k => ?_⟩
    · simp [rxBufferScanned, hscan]
    · simp [rxBufferScanned, hscan]
  · right
    refine ⟨k, hk, hflag, h, fun j => ?_, rfl, ?_⟩
    · simp only [flagged, rxBufferScanned, hscan]
      exact mcanRxGetBufferStatus_clear s.mcan.newData k j
    · simp [rxBufferScanned, hscan]

/-- Taking the one flagged buffer's frame empties it, and no flag is left. -/
theorem BufferInv.scan {s : Node} (h : BufferInv s)
    (hone : ∀ j k, j < confMcan1RxBufferNum → k < confMcan1RxBufferNum →
      flagged s j = true → flagged s k = true → j = k) :
    BufferInv (rxBufferBranch s) ∧
      ∀ k, k < confMcan1RxBufferNum → flagged (rxBufferBranch s) k = false := by
  rcases rxBufferBranch_cases h.hw with ⟨hnone, hsame⟩ | ⟨k, hk, hflag, hw, hflags, hcells, htrace⟩
  · have hleft : ∀ k, k < confMcan1RxBufferNum → flagged (rxBufferBranch s) k = false := by
      intro k hk
      rw [flagged, hsame.newData]
      exact hnone k hk
    refine ⟨⟨hsame.hw.trans h.hw, fun k hk => ?_, fun _ => hleft⟩, hleft⟩
    rw [hsame.mail, hleft k hk, h.box k hk, hnone k hk]
    rfl
  · have hleft : ∀ j, j < confMcan1RxBufferNum → flagged (rxBufferBranch s) j = false := by
      intro j hj
      rw [hflags]
      cases hf : flagged s j with
      | false => rfl
      | true => simp [hone j k hj hk hf hflag]
    refine ⟨⟨hw, fun j hj => ?_, fun _ => hleft⟩, hleft⟩
    rw [htrace, mailLog_append, Mailbox.replay_append, h.box j hj, hleft j hj]
    by_cases hjk : j = k
    · subst hjk
      simp [hflag, mailLog, bufferReport, Mailbox.replay]
    · have hf : flagged s j = false := by
        cases hf : flagged s j with
        | false => rfl
        | true => exact absurd (hone j k hj hk hf hflag) hjk
      have hkj : ¬ k = j := fun h => hjk h.symm
      simp [hf, mailLog, bufferReport, Mailbox.replay, hkj]

/-- A scan that finds two flagged buffers leaves one of them flagged. -/
theorem scan_strands {s : Node} (h : s.hw = .mcan1) {j k : Nat} (hj : j < confMcan1RxBufferNum)
    (hk : k < confMcan1RxBufferNum) (hfj : flagged s j = true) (hfk : flagged s k = true)
    (hjk : j ≠ k) :
    ∃ i, i < confMcan1RxBufferNum ∧ flagged (rxBufferBranch s) i = true := by
  rcases rxBufferBranch_cases h with ⟨hnone, _⟩ | ⟨m, _, _, _, hflags, _, _⟩
  · rw [hnone j hj] at hfj; cases hfj
  · by_cases hjm : j = m
    · have hkm : k ≠ m := fun h => hjk (hjm.trans h.symm)
      refine ⟨k, hk, ?_⟩
      rw [hflags, hfk]
      simp [hkm]
    · refine ⟨j, hj, ?_⟩
      rw [hflags, hfj]
      simp [hjm]

theorem BufferInv.step {s s' : Node} {e : NodeEvent} (h : BufferInv s) (hc : OneFlagged s e)
    (hs : nodeMachine.step s e = some s') : BufferInv s' := by
  cases e with
  | txMessage idValue length data txElement =>
    obtain ⟨e, _, hcase⟩ := txMessage_step hs
    rcases hcase with ⟨_, rfl⟩ | ⟨_, _, rfl⟩ | ⟨_, _, rfl⟩
    · exact h
    · exact h.of_same ⟨rfl, rfl, rfl, fun _ => rfl⟩ rfl
    · refine h.of_same ⟨rfl, rfl, rfl, fun k => ?_⟩ rfl
      simp [mailLog]
  | busStep =>
    obtain ⟨_, rfl⟩ := busStep_step hs
    exact h.of_same (.of_emit rfl (fun _ => rfl) rfl rfl rfl) rfl
  | rxBuffer k e => cases hs; exact h.store k e
  | rxFifo0 e =>
    cases hs
    exact h.of_same (.of_emit rfl (fun _ => rfl) rfl rfl rfl) (has_or_of_disjoint (by decide))
  | rxFifo1 e =>
    cases hs
    exact h.of_same (.of_emit rfl (fun _ => rfl) rfl rfl rfl) (has_or_of_disjoint (by decide))
  | busOff =>
    cases hs
    exact h.of_same ⟨rfl, rfl, rfl, fun _ => rfl⟩ (has_or_of_disjoint (by decide))
  | raise flags =>
    cases hs
    exact h.of_same ⟨rfl, rfl, rfl, fun _ => rfl⟩ (has_or_otherFlags (by decide))
  | handler =>
    cases hs
    have hsame := bufSame_handler h.hw
    have hir := handler_flag s (.inl rfl)
    cases hpend : has s.mcan.ir mcanRxBufferNewMessage with
    | false =>
      rw [hpend, guarded_false] at hsame
      exact h.of_same hsame (hir.trans hpend.symm)
    | true =>
      rw [hpend, guarded_true] at hsame
      obtain ⟨hinv, hleft⟩ := h.scan (hc hpend)
      refine ⟨hsame.hw.trans hinv.hw, fun k hk => ?_, fun _ k hk => ?_⟩
      · rw [hsame.mail, flagged, hsame.newData, hsame.rxBuffer]
        exact hinv.box k hk
      · rw [flagged, hsame.newData]
        exact hleft k hk

/-! ## The buffers of a run -/

theorem bufferInv_boot {s : Node} (h : PowerOn s) : BufferInv (boot s) := by
  obtain ⟨_, _, _, _, hm⟩ := boot_mcan h
  have htrace : (boot s).trace = [] := h.trace
  have hflag : ∀ k, k < confMcan1RxBufferNum → flagged (boot s) k = false := by
    intro k _
    simp [flagged, hm, mcanRxGetBufferStatus]
  refine ⟨rfl, fun k hk => ?_, fun _ => hflag⟩
  rw [htrace, hflag k hk]
  rfl

/-- A handler run that finds two flagged buffers leaves a flag behind without an interrupt. -/
theorem handler_strands {s : Node} (h : s.hw = .mcan1)
    (hpend : has s.mcan.ir mcanRxBufferNewMessage = true) {j k : Nat}
    (hj : j < confMcan1RxBufferNum) (hk : k < confMcan1RxBufferNum) (hfj : flagged s j = true)
    (hfk : flagged s k = true) (hjk : j ≠ k) : ¬ BuffersDelivered (mcan1Int0Handler s) := by
  have hsame := bufSame_handler h
  rw [hpend, guarded_true] at hsame
  obtain ⟨i, hi, hfi⟩ := scan_strands h hj hk hfj hfk hjk
  intro hd
  have hnot := (hd (handler_flag s (.inl rfl)) i hi).1
  rw [flagged, hsame.newData] at hnot
  rw [flagged, hnot] at hfi
  cases hfi

/-- **Rx buffers.** No message is stranded, taken twice or lost exactly when no handler run that
answers the interrupt finds two buffers flagged. -/
theorem rx_buffers_delivered_iff {s : Node} (h : PowerOn s) (es : List NodeEvent) :
    nodeMachine.Always BuffersDelivered (boot s) es ↔
      nodeMachine.EachStep OneFlagged (boot s) es := by
  refine Machine.always_iff_eachStep (I := BufferInv) (fun _ hi => hi.delivered)
    (fun _ _ _ hi hc hs => hi.step hc hs) (fun t e t' hi hc hs => ?_) (bufferInv_boot h)
  cases e with
  | handler =>
    cases hs
    simp only [OneFlagged, Classical.not_imp, Classical.not_forall] at hc
    obtain ⟨hpend, j, k, hj, hk, hfj, hfk, hjk⟩ := hc
    exact handler_strands hi.hw hpend hj hk hfj hfk hjk
  | _ => exact absurd trivial hc

/-- One stored message and the handler run that answers it. -/
theorem rx_buffers_one_stored :
    nodeMachine.Always BuffersDelivered (boot reset) [.rxBuffer 2 blankRxElement, .handler] := by
  refine (rx_buffers_delivered_iff powerOn_reset _).mpr ?_
  intro s1 h1
  cases h1
  refine ⟨trivial, ?_⟩
  intro s2 _
  refine ⟨fun _ j k hj hk => ?_, trivial⟩
  have hall : ∀ j, j < 4 → ∀ k, k < 4 →
      flagged ((boot reset).onMcan (Mcan.storeRxBuffer 2 blankRxElement)) j = true →
      flagged ((boot reset).onMcan (Mcan.storeRxBuffer 2 blankRxElement)) k = true → j = k := by
    decide
  exact hall j hj k hk

/-- Two messages stored before the handler runs. -/
theorem rx_buffers_two_stored :
    ¬ nodeMachine.Always BuffersDelivered (boot reset)
      [.rxBuffer 0 blankRxElement, .rxBuffer 1 blankRxElement, .handler] := by
  rintro ⟨_, h1⟩
  obtain ⟨_, h2⟩ := h1 _ rfl
  obtain ⟨_, h3⟩ := h2 _ rfl
  refine handler_strands (j := 0) (k := 1) ?_ ?_ ?_ ?_ ?_ ?_ ?_ (Machine.always_here (h3 _ rfl))
  all_goals decide

end CanNet
