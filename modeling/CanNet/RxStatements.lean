import CanNet.RxBuffers

/-!
# CanNet.RxStatements

`MCAN1_INT0_Handler` statement by statement, as far as it is about the Rx buffers.

The node machine takes a run of the handler in one step. Here frames may be stored and errors may
come between its statements; the main program, which the handler interrupts, stands still meanwhile.
The new-data flag of a buffer is cleared before the element is copied out, so what is copied need not
be the frame whose flag was found.
-/

namespace CanNet

open Bits

/-! ## The statements -/

/-- The next statement. `status` is the local copy of the interrupt flags, `i` the shared index. -/
inductive HandlerPoint where
  | idle
  | entered (status : Word)
  | scan (i : Nat) (status : Word)
  | clear (i : Nat) (status : Word)
  | copy (i : Nat) (status : Word)
  | rest (status : Word)
deriving DecidableEq

structure HandlingNode where
  node : Node
  point : HandlerPoint

/-- The branches after the Rx buffers', taken together. -/
def otherBranches (status : Word) (s : Node) : Node :=
  guarded (has status mcanBusOff) busOffBranch
    (guarded (has status mcanAcknowledgeError || has status mcanFormatError) protocolErrorBranch
      (guarded (has status mcanRxFifo1NewMessage) fifo1Branch
        (guarded (has status mcanRxFifo0NewMessage) fifo0Branch s)))

namespace HandlingNode

def statement (s : HandlingNode) : HandlingNode :=
  match s.point with
  | .idle => { s with point := .entered (mcanReadInterruptStatus s.node) }
  | .entered status =>
    if has status mcanRxBufferNewMessage then
      { node := mcanClearInterruptStatus mcanRxBufferNewMessage s.node, point := .scan 0 status }
    else { s with point := .rest status }
  | .scan i status =>
    if i < confMcan0RxBufferNum then
      if mcanRxGetBufferStatus s.node.mcan.newData i then { s with point := .clear i status }
      else { s with point := .scan (i + 1) status }
    else { s with point := .rest status }
  | .clear i status =>
    { node := s.node.onMcan fun m => { m with newData := mcanRxClearBufferStatus m.newData i }
      point := .copy i status }
  -- the print loop leaves `i` at the data size, and the scan goes on behind it
  | .copy i status =>
    { node := serviceRxBuffer s.node i, point := .scan (confMcanElementDataSize + 1) status }
  | .rest status => { node := otherBranches status s.node, point := .idle }

/-- What may come between two statements. -/
def admits (s : HandlingNode) : NodeEvent → Bool
  | .handler => false
  | .txMessage .. => s.point = .idle
  | _ => true

end HandlingNode

inductive HandlingEvent where
  | statement
  | node (e : NodeEvent)

def handlingStep (s : HandlingNode) : HandlingEvent → Option HandlingNode
  | .statement => some s.statement
  | .node e =>
    if s.admits e then (nodeMachine.step s.node e).map fun node => { s with node := node } else none

def handlingMachine : Machine HandlingNode HandlingEvent where
  step := handlingStep

def handlingBoot (s : Node) : HandlingNode := { node := boot s, point := .idle }

/-! ## The handler undisturbed -/

theorem run_statement (s : HandlingNode) (n : Nat) :
    handlingMachine.run s (List.replicate (n + 1) .statement) =
      handlingMachine.run s.statement (List.replicate n .statement) := by
  rw [List.replicate_succ]
  exact Machine.run_cons_some rfl _

/-- From the end of the scan the handler returns. -/
theorem run_rest (s : Node) {i : Nat} (hi : confMcan0RxBufferNum ≤ i) (status : Word) :
    handlingMachine.run ⟨s, .scan i status⟩ (List.replicate 2 .statement) =
      some ⟨otherBranches status s, .idle⟩ := by
  have hscan : HandlingNode.statement ⟨s, .scan i status⟩ = ⟨s, .rest status⟩ := by
    simp [HandlingNode.statement, Nat.not_lt.mpr hi]
  rw [run_statement, hscan]
  rfl

/-- What is left of the Rx buffer branch when the scan is at index `i`. -/
def scanBranch (i : Nat) (s : Node) : Node :=
  let r := rxBufferScan confMcan0RxBufferNum confMcanElementDataSize i s.mcan.newData
  r.2.foldl serviceRxBuffer (s.onMcan fun m => { m with newData := r.1 })

/-- The scan and the branches behind it, by induction on the buffers still to be looked at. -/
theorem run_scan (status : Word) (d : Nat) : ∀ {i : Nat} (s : Node), i + d = confMcan0RxBufferNum →
    ∃ n, handlingMachine.run ⟨s, .scan i status⟩ (List.replicate n .statement) =
      some ⟨otherBranches status (scanBranch i s), .idle⟩ := by
  induction d with
  | zero =>
    intro i s hi
    refine ⟨2, ?_⟩
    rw [run_rest s (by omega) status, scanBranch, rxBufferScan_past s.mcan.newData (by omega)]
    rfl
  | succ d ih =>
    intro i s hi
    have hlt : i < confMcan0RxBufferNum := by omega
    cases hflag : mcanRxGetBufferStatus s.mcan.newData i with
    | false =>
      obtain ⟨n, hn⟩ := ih s (show i + 1 + d = confMcan0RxBufferNum by omega)
      have hfirst : HandlingNode.statement ⟨s, .scan i status⟩ = ⟨s, .scan (i + 1) status⟩ := by
        simp only [HandlingNode.statement, if_pos hlt, hflag, Bool.false_eq_true, if_false]
      refine ⟨n + 1, ?_⟩
      rw [run_statement, hfirst, hn, scanBranch, scanBranch, rxBufferScan_clear hflag]
    | true =>
      have hfirst : HandlingNode.statement ⟨s, .scan i status⟩ = ⟨s, .clear i status⟩ := by
        simp only [HandlingNode.statement, if_pos hlt, hflag, if_true]
      refine ⟨3 + 2, ?_⟩
      rw [run_statement, hfirst, run_statement, run_statement]
      rw [scanBranch, rxBufferScan_flagged hlt hflag, rxBufferScan_past _ (by decide)]
      exact run_rest _ (by decide) status

/-- Undisturbed, the statements come to what `mcan1Int0Handler` computes. -/
theorem run_handler (s : Node) :
    ∃ n, handlingMachine.run ⟨s, .idle⟩ (List.replicate n .statement) =
      some ⟨mcan1Int0Handler s, .idle⟩ := by
  have hread : HandlingNode.statement ⟨s, .idle⟩ = ⟨s, .entered s.mcan.ir⟩ := rfl
  cases hpend : has s.mcan.ir mcanRxBufferNewMessage with
  | false =>
    have hskip : HandlingNode.statement ⟨s, .entered s.mcan.ir⟩ = ⟨s, .rest s.mcan.ir⟩ := by
      simp only [HandlingNode.statement, hpend, Bool.false_eq_true, if_false]
    refine ⟨3, ?_⟩
    rw [run_statement, hread, run_statement, hskip, mcan1Int0Handler_eq, hpend, guarded_false]
    rfl
  | true =>
    have hclear : HandlingNode.statement ⟨s, .entered s.mcan.ir⟩ =
        ⟨mcanClearInterruptStatus mcanRxBufferNewMessage s, .scan 0 s.mcan.ir⟩ := by
      simp only [HandlingNode.statement, hpend, if_true]
    obtain ⟨n, hn⟩ := run_scan s.mcan.ir confMcan0RxBufferNum
      (mcanClearInterruptStatus mcanRxBufferNewMessage s) (Nat.zero_add _)
    refine ⟨n + 2, ?_⟩
    rw [run_statement, hread, run_statement, hclear, hn, mcan1Int0Handler_eq, hpend, guarded_true]
    rfl

/-- What a statement can be. -/
inductive StatementMove (s : HandlingNode) : HandlingNode → Prop
  | enter (hp : s.point = .idle) : StatementMove s ⟨s.node, .entered s.node.mcan.ir⟩
  | answer {status : Word} (hp : s.point = .entered status)
      (hpend : has status mcanRxBufferNewMessage = true) :
      StatementMove s ⟨mcanClearInterruptStatus mcanRxBufferNewMessage s.node, .scan 0 status⟩
  | pass {status : Word} (hp : s.point = .entered status)
      (hpend : has status mcanRxBufferNewMessage = false) : StatementMove s ⟨s.node, .rest status⟩
  | found {i : Nat} {status : Word} (hp : s.point = .scan i status) (hi : i < confMcan0RxBufferNum)
      (hflag : flagged s.node i = true) : StatementMove s ⟨s.node, .clear i status⟩
  | skip {i : Nat} {status : Word} (hp : s.point = .scan i status) (hi : i < confMcan0RxBufferNum)
      (hflag : flagged s.node i = false) : StatementMove s ⟨s.node, .scan (i + 1) status⟩
  | scanned {i : Nat} {status : Word} (hp : s.point = .scan i status)
      (hi : confMcan0RxBufferNum ≤ i) : StatementMove s ⟨s.node, .rest status⟩
  | clear {i : Nat} {status : Word} (hp : s.point = .clear i status) :
      StatementMove s ⟨s.node.onMcan fun m => { m with
        newData := mcanRxClearBufferStatus m.newData i }, .copy i status⟩
  | copy {i : Nat} {status : Word} (hp : s.point = .copy i status) :
      StatementMove s ⟨serviceRxBuffer s.node i, .scan (confMcanElementDataSize + 1) status⟩
  | rest {status : Word} (hp : s.point = .rest status) :
      StatementMove s ⟨otherBranches status s.node, .idle⟩

theorem statement_move {s s' : HandlingNode} (h : handlingMachine.step s .statement = some s') :
    StatementMove s s' := by
  cases h
  obtain ⟨node, point⟩ := s
  cases point with
  | idle => exact .enter rfl
  | entered status =>
    simp only [HandlingNode.statement]
    split
    · exact .answer rfl ‹_›
    · exact .pass rfl (Bool.not_eq_true _ ▸ ‹_›)
  | scan i status =>
    simp only [HandlingNode.statement]
    split
    · rename_i hi
      split
      · exact .found rfl hi ‹_›
      · exact .skip rfl hi (Bool.not_eq_true _ ▸ ‹_›)
    · exact .scanned rfl (Nat.le_of_not_lt ‹_›)
  | clear i status => exact .clear rfl
  | copy i status => exact .copy rfl
  | rest status => exact .rest rfl

/-! ## What comes between the statements -/

/-- What the hardware and the interrupted program do about the Rx buffers: nothing, or one store. -/
inductive BetweenMove (s : HandlingNode) : HandlingNode → Prop
  | same {t : Node} (hsame : BufSame s.node t)
      (hir : has t.mcan.ir mcanRxBufferNewMessage = has s.node.mcan.ir mcanRxBufferNewMessage) :
      BetweenMove s { s with node := t }
  | store (k : Fin confMcan1RxBufferNum) (e : McanRxElement) :
      BetweenMove s { s with
        node := (s.node.onMcan (Mcan.storeRxBuffer k e)).emit (.stored (.buffer k) e) }

theorem between_move {s s' : HandlingNode} {e : NodeEvent}
    (h : handlingMachine.step s (.node e) = some s') : BetweenMove s s' := by
  simp only [handlingMachine, handlingStep] at h
  split at h
  · rename_i hadmits
    obtain ⟨t, ht, rfl⟩ := Option.map_eq_some_iff.mp h
    cases e with
    | txMessage idValue length data txElement =>
      have hflag := flag_step (e := .txMessage idValue length data txElement) (fun h => by cases h)
        (has_zero mcanRxBufferNewMessage) ht
      refine .same ?_ hflag
      obtain ⟨e, _, hcase⟩ := txMessage_step ht
      rcases hcase with ⟨_, rfl⟩ | ⟨_, _, rfl⟩ | ⟨_, _, rfl⟩
      · exact .refl _
      · exact ⟨rfl, rfl, rfl, fun _ => rfl⟩
      · exact ⟨rfl, rfl, rfl, fun k => by simp [mailLog]⟩
    | busStep =>
      obtain ⟨_, rfl⟩ := busStep_step ht
      exact .same (.of_emit rfl (fun _ => rfl) rfl rfl rfl) rfl
    | rxBuffer k e => cases ht; exact .store k e
    | rxFifo0 e =>
      cases ht
      exact .same (.of_emit rfl (fun _ => rfl) rfl rfl rfl) (has_or_of_disjoint (by decide))
    | rxFifo1 e =>
      cases ht
      exact .same (.of_emit rfl (fun _ => rfl) rfl rfl rfl) (has_or_of_disjoint (by decide))
    | busOff =>
      cases ht
      exact .same ⟨rfl, rfl, rfl, fun _ => rfl⟩ (has_or_of_disjoint (by decide))
    | raise flags =>
      cases ht
      exact .same ⟨rfl, rfl, rfl, fun _ => rfl⟩ (has_or_otherFlags (by decide))
    | handler => exact absurd hadmits (by simp [HandlingNode.admits])
  · cases h

theorem bufSame_otherBranches {s : Node} (h : s.hw = .mcan1) (status : Word) :
    BufSame s (otherBranches status s) := by
  refine guarded_keeps (Q := BufSame s) ?_ fun _ t ht =>
    ht.trans (bufSame_busOffBranch (ht.hw.trans h))
  refine guarded_keeps (Q := BufSame s) ?_ fun _ t ht => ht.trans (bufSame_protocolErrorBranch t)
  refine guarded_keeps (Q := BufSame s) ?_ fun _ t ht => ht.trans (bufSame_fifo1Branch t)
  exact guarded_keeps (Q := BufSame s) (BufSame.refl s) fun _ t ht => ht.trans (bufSame_fifo0Branch t)

/-- The other branches leave the Rx buffers' interrupt flag alone. -/
theorem otherBranches_flag (status : Word) (s : Node) :
    has (otherBranches status s).mcan.ir mcanRxBufferNewMessage =
      has s.mcan.ir mcanRxBufferNewMessage := by
  have hkeep {branch : Node → Node} (flags : Word) (hd : flags &&& mcanRxBufferNewMessage = 0#32)
      (hir : ∀ t, (branch t).mcan.ir = t.mcan.ir &&& ~~~flags) (t : Node) :
      has t.mcan.ir mcanRxBufferNewMessage = has s.mcan.ir mcanRxBufferNewMessage →
      has (branch t).mcan.ir mcanRxBufferNewMessage = has s.mcan.ir mcanRxBufferNewMessage := by
    intro ht
    rw [hir, has_clear_of_disjoint hd, ht]
  have hoff : ∀ t, (busOffBranch t).mcan.ir = t.mcan.ir &&& ~~~mcanBusOff := by
    intro t
    obtain ⟨_, _, _, hm⟩ := busOffBranch_mcan t
    rw [hm]
  refine guarded_keeps (Q := fun t => has t.mcan.ir mcanRxBufferNewMessage = _) ?_ fun _ =>
    hkeep mcanBusOff (by decide) hoff
  refine guarded_keeps (Q := fun t => has t.mcan.ir mcanRxBufferNewMessage = _) ?_ fun _ =>
    hkeep (mcanAcknowledgeError ||| mcanFormatError) (by decide) fun _ => rfl
  refine guarded_keeps (Q := fun t => has t.mcan.ir mcanRxBufferNewMessage = _) ?_ fun _ =>
    hkeep mcanRxFifo1NewMessage (by decide) fun _ => rfl
  exact guarded_keeps (Q := fun t => has t.mcan.ir mcanRxBufferNewMessage = _) rfl fun _ =>
    hkeep mcanRxFifo0NewMessage (by decide) fun _ => rfl

theorem flagged_store {s : Node} (k : Fin confMcan1RxBufferNum) (e : McanRxElement) {j : Nat}
    (hj : j < confMcan1RxBufferNum) :
    flagged ((s.onMcan (Mcan.storeRxBuffer k e)).emit (.stored (.buffer k) e)) j =
      (flagged s j || decide (j = k)) :=
  mcanRxGetBufferStatus_store _ _ (Nat.lt_of_lt_of_le k.isLt (by decide))
    (Nat.lt_of_lt_of_le hj (by decide))

theorem serviceRxBuffer_eq {s : Node} (h : s.hw = .mcan1) (k : Nat) :
    serviceRxBuffer s k =
      { s with rxElementBuffer := s.mcan.rxBuffer k, trace := s.trace ++ [bufferReport s.mcan k] } := by
  have := foldl_serviceRxBuffer [k] h
  simpa using this

/-! ## The copied messages -/

namespace HandlerPoint

/-- The flag of buffer `k` is cleared, its element not yet copied. -/
def copying (k : Nat) : HandlerPoint → Bool
  | .copy i _ => i = k
  | _ => false

/-- The handler still comes to buffer `k`, provided it does not stop at another one before. -/
def ahead (k : Nat) : HandlerPoint → Bool
  | .entered status => has status mcanRxBufferNewMessage
  | .scan i _ | .clear i _ | .copy i _ => i ≤ k
  | _ => false

end HandlerPoint

/-- Of every buffer the messages copied are those that no newer one replaced, once each and in
order, but for one that is still to be copied; and a flagged buffer has one. -/
def CopiedFaithfully (s : HandlingNode) : Prop :=
  ∀ k, k < confMcan1RxBufferNum → ∃ box : Option McanRxElement,
    Mailbox.takes (mailLog k s.node.trace) ++ box.toList =
      Mailbox.survivors (mailLog k s.node.trace) ∧
    (flagged s.node k = true → box = some (s.node.mcan.rxBuffer k))

/-- No message is stored into a buffer between the clearing of its flag and the copy. -/
def CopiedClear (s : HandlingNode) : HandlingEvent → Prop
  | .statement => ∀ i status, s.point = .copy i status → flagged s.node i = false
  | .node _ => True

instance (s : HandlingNode) : ∀ e, Decidable (CopiedClear s e)
  | .node _ => isTrue trivial
  | .statement =>
    match hp : s.point with
    | .copy i status => decidable_of_iff (flagged s.node i = false)
        ⟨fun hf _ _ h => by cases hp.symm.trans h; exact hf, fun hf => hf i status hp⟩
    | .idle | .entered _ | .scan _ _ | .clear _ _ | .rest _ =>
      isTrue fun _ _ h => by cases hp.symm.trans h

structure CopyInv (s : HandlingNode) : Prop where
  hw : s.node.hw = .mcan1
  box : ∀ k, k < confMcan1RxBufferNum →
    Mailbox.replay none (mailLog k s.node.trace) =
      some (if flagged s.node k || s.point.copying k then some (s.node.mcan.rxBuffer k) else none)
  clearing : ∀ i status, s.point = .clear i status →
    i < confMcan1RxBufferNum ∧ flagged s.node i = true
  inRange : ∀ i status, s.point = .copy i status → i < confMcan1RxBufferNum

theorem CopyInv.faithful {s : HandlingNode} (h : CopyInv s) : CopiedFaithfully s := by
  intro k hk
  refine ⟨_, Mailbox.takes_eq_survivors (h.box k hk), fun hflag => ?_⟩
  rw [hflag, Bool.true_or, if_pos rfl]

theorem CopyInv.between {s s' : HandlingNode} (h : CopyInv s) (hm : BetweenMove s s') :
    CopyInv s' := by
  cases hm with
  | same hsame _ =>
    refine ⟨hsame.hw.trans h.hw, fun k hk => ?_, fun i status hp => ?_, h.inRange⟩
    · rw [hsame.mail, flagged, hsame.newData, hsame.rxBuffer]
      exact h.box k hk
    · rw [flagged, hsame.newData]
      exact h.clearing i status hp
  | store k e =>
    refine ⟨h.hw, fun j hj => ?_, fun i status hp => ?_, h.inRange⟩
    · have hbox := h.box j hj
      rw [flagged_store k e hj]
      simp only [Node.emit_mcan, Node.onMcan_mcan, Node.emit_trace, Node.onMcan_trace,
        mailLog_append, Mailbox.replay_append, hbox]
      by_cases hjk : j = k
      · subst hjk
        simp [mailLog, Mailbox.replay, Mcan.storeRxBuffer]
      · have hkj : ¬ (k : Nat) = j := fun h => hjk h.symm
        simp [mailLog, Mailbox.replay, Mcan.storeRxBuffer, hjk, hkj]
    · obtain ⟨hi, hflag⟩ := h.clearing i status hp
      refine ⟨hi, ?_⟩
      rw [flagged_store k e hi, hflag, Bool.true_or]

/-- Statements that only move on keep what is known, as long as they leave the buffers alone. -/
theorem CopyInv.moved {s s' : HandlingNode} (h : CopyInv s) (hsame : BufSame s.node s'.node)
    (hbefore : ∀ k, s.point.copying k = false) (hafter : ∀ k, s'.point.copying k = false)
    (hclearing : ∀ i status, s'.point = .clear i status →
      i < confMcan1RxBufferNum ∧ flagged s'.node i = true) : CopyInv s' where
  hw := hsame.hw.trans h.hw
  box k hk := by
    have hbox := h.box k hk
    rw [hbefore, Bool.or_false] at hbox
    rw [hsame.mail, flagged, hsame.newData, hsame.rxBuffer, hafter, Bool.or_false]
    exact hbox
  clearing := hclearing
  inRange i status hp := by
    have := hafter i
    rw [hp, HandlerPoint.copying, decide_eq_false_iff_not] at this
    exact absurd rfl this

theorem CopyInv.clear {s : HandlingNode} (h : CopyInv s) {i : Nat} {status : Word}
    (hp : s.point = .clear i status) :
    CopyInv ⟨s.node.onMcan fun m => { m with newData := mcanRxClearBufferStatus m.newData i },
      .copy i status⟩ := by
  obtain ⟨hi, hflag⟩ := h.clearing i status hp
  refine ⟨h.hw, fun k hk => ?_, fun j st hj => ?_, fun j st hj => ?_⟩
  · have hbox := h.box k hk
    have hclear : flagged (s.node.onMcan fun m => { m with
        newData := mcanRxClearBufferStatus m.newData i }) k = (flagged s.node k && decide (k ≠ i)) :=
      mcanRxGetBufferStatus_clear s.node.mcan.newData i k
    simp only [hp, HandlerPoint.copying, Bool.or_false] at hbox
    simp only [hclear, HandlerPoint.copying]
    by_cases hki : k = i
    · subst hki
      simpa [hflag] using hbox
    · have hik : ¬ i = k := fun h => hki h.symm
      simpa [hki, hik] using hbox
  · cases hj
  · cases hj
    exact hi

theorem mailLog_serviceRxBuffer {s : Node} (h : s.hw = .mcan1) (i k : Nat) :
    mailLog k (serviceRxBuffer s i).trace =
      mailLog k s.trace ++ if i = k then [.take (s.mcan.rxBuffer i)] else [] := by
  rw [serviceRxBuffer_eq h, mailLog_append]
  by_cases hik : i = k <;> simp [mailLog, bufferReport, hik]

theorem CopyInv.copy {s : HandlingNode} (h : CopyInv s) {i : Nat} {status : Word}
    (hp : s.point = .copy i status) (hclear : flagged s.node i = false) :
    CopyInv ⟨serviceRxBuffer s.node i, .scan (confMcanElementDataSize + 1) status⟩ := by
  refine ⟨h.hw, fun k hk => ?_, (fun _ _ hj => by cases hj), fun _ _ hj => by cases hj⟩
  have hbox := h.box k hk
  have hflags : flagged (serviceRxBuffer s.node i) k = flagged s.node k := rfl
  have hcells : (serviceRxBuffer s.node i).mcan.rxBuffer = s.node.mcan.rxBuffer := rfl
  simp only [hp, HandlerPoint.copying] at hbox
  simp only [mailLog_serviceRxBuffer h.hw, Mailbox.replay_append, hbox, HandlerPoint.copying,
    Bool.or_false, hflags, hcells]
  by_cases hik : i = k
  · subst hik
    simp [Mailbox.replay, hclear]
  · simp [Mailbox.replay, hik]

theorem CopyInv.statement {s s' : HandlingNode} (h : CopyInv s) (hc : CopiedClear s .statement)
    (hm : StatementMove s s') : CopyInv s' := by
  cases hm with
  | enter hp =>
    exact h.moved (.refl _) (by simp [hp, HandlerPoint.copying]) (fun _ => rfl)
      fun _ _ hj => by cases hj
  | answer hp _ =>
    exact h.moved ⟨rfl, rfl, rfl, fun _ => rfl⟩ (by simp [hp, HandlerPoint.copying]) (fun _ => rfl)
      fun _ _ hj => by cases hj
  | pass hp _ =>
    exact h.moved (.refl _) (by simp [hp, HandlerPoint.copying]) (fun _ => rfl)
      fun _ _ hj => by cases hj
  | found hp hi hflag =>
    refine h.moved (.refl _) (by simp [hp, HandlerPoint.copying]) (fun _ => rfl) fun _ _ hj => ?_
    cases hj
    exact ⟨hi, hflag⟩
  | skip hp _ _ =>
    exact h.moved (.refl _) (by simp [hp, HandlerPoint.copying]) (fun _ => rfl)
      fun _ _ hj => by cases hj
  | scanned hp _ =>
    exact h.moved (.refl _) (by simp [hp, HandlerPoint.copying]) (fun _ => rfl)
      fun _ _ hj => by cases hj
  | clear hp => exact h.clear hp
  | copy hp => exact h.copy hp (hc _ _ hp)
  | rest hp =>
    exact h.moved (bufSame_otherBranches h.hw _) (by simp [hp, HandlerPoint.copying])
      (fun _ => rfl) fun _ _ hj => by cases hj

/-- A message stored over one whose flag is already cleared is copied in its place, and its flag
is still set. -/
theorem copy_disturbed {s : HandlingNode} (h : CopyInv s) {i : Nat} {status : Word}
    (hp : s.point = .copy i status) (hflag : flagged s.node i = true) :
    ¬ CopiedFaithfully ⟨serviceRxBuffer s.node i, .scan (confMcanElementDataSize + 1) status⟩ := by
  intro hcopied
  have hbox := h.box i (h.inRange i status hp)
  rw [hflag, Bool.true_or, if_pos rfl] at hbox
  have htaken : Mailbox.replay none (mailLog i (serviceRxBuffer s.node i).trace) = some none := by
    rw [mailLog_serviceRxBuffer h.hw, Mailbox.replay_append, hbox, if_pos rfl]
    simp [Mailbox.replay]
  obtain ⟨box, htakes, hwaits⟩ := hcopied i (h.inRange i status hp)
  rw [hwaits hflag, ← Mailbox.delivered htaken] at htakes
  exact absurd (congrArg List.length htakes) (by simp)

theorem copyInv_boot {s : Node} (h : PowerOn s) : CopyInv (handlingBoot s) where
  hw := rfl
  box k hk := by
    have hbox := (bufferInv_boot h).box k hk
    have hidle : (handlingBoot s).point.copying k = false := rfl
    rw [hidle, Bool.or_false]
    exact hbox
  clearing _ _ hp := by cases hp
  inRange _ _ hp := by cases hp

/-- **The copied messages.** With frames stored between the statements of the handler, what it copies
out of every buffer is what no newer message replaced, once each and in order, and a flagged buffer
has its message still to be copied, exactly when no message comes into a buffer between the clearing
of its flag and the copy. -/
theorem copied_faithfully_iff {s : Node} (h : PowerOn s) (es : List HandlingEvent) :
    handlingMachine.Always CopiedFaithfully (handlingBoot s) es ↔
      handlingMachine.EachStep CopiedClear (handlingBoot s) es := by
  refine Machine.always_iff_eachStep (I := CopyInv) (fun _ hi => hi.faithful)
    (fun t e t' hi hc hs => ?_) (fun t e t' hi hc hs => ?_) (copyInv_boot h)
  · cases e with
    | statement => exact hi.statement hc (statement_move hs)
    | node e => exact hi.between (between_move hs)
  · cases e with
    | statement =>
      simp only [CopiedClear, Classical.not_forall, Bool.not_eq_false] at hc
      obtain ⟨i, status, hp, hflag⟩ := hc
      cases hs
      rw [show t.statement = ⟨serviceRxBuffer t.node i, .scan (confMcanElementDataSize + 1) status⟩
        by simp only [HandlingNode.statement, hp]]
      exact copy_disturbed hi hp hflag
    | node e => exact absurd trivial hc

/-- A second message comes between the clearing of the flag and the copy. -/
theorem copied_faithfully_disturbed : ¬ handlingMachine.Always CopiedFaithfully (handlingBoot reset)
    [.node (.rxBuffer 0 blankRxElement), .statement, .statement, .statement, .statement,
      .node (.rxBuffer 0 blankRxElement), .statement] := by
  refine (copied_faithfully_iff powerOn_reset _).not.mpr fun h => ?_
  have hstored := (h _ rfl).2
  have hcleared := ((((hstored _ rfl).2 _ rfl).2 _ rfl).2 _ rfl).2
  have hcopy := ((hcleared _ rfl).2 _ rfl).1
  have hflag := hcopy 0 mcanRxBufferNewMessage (by decide)
  revert hflag
  decide

/-! ## The messages that are waiting -/

def rxPending (s : Node) : Bool := has s.mcan.ir mcanRxBufferNewMessage

/-- A flagged buffer has its interrupt pending or the handler still before it. -/
def Attended (s : HandlingNode) : Prop :=
  ∀ k, k < confMcan1RxBufferNum → flagged s.node k = true →
    rxPending s.node = true ∨ s.point.ahead k = true

/-- At the copy, behind which the scan ends, no buffer is flagged unless the interrupt is pending
again. -/
def CopiedLast (s : HandlingNode) : HandlingEvent → Prop
  | .statement => ∀ i status, s.point = .copy i status → rxPending s.node = true ∨
      ∀ k, k < confMcan1RxBufferNum → flagged s.node k = false
  | .node _ => True

instance (s : HandlingNode) : ∀ e, Decidable (CopiedLast s e)
  | .node _ => isTrue trivial
  | .statement =>
    match hp : s.point with
    | .copy i status => decidable_of_iff (rxPending s.node = true ∨
          ∀ k, k < confMcan1RxBufferNum → flagged s.node k = false)
        ⟨fun hf _ _ h => by cases hp.symm.trans h; exact hf, fun hf => hf i status hp⟩
    | .idle | .entered _ | .scan _ _ | .clear _ _ | .rest _ =>
      isTrue fun _ _ h => by cases hp.symm.trans h

theorem Attended.between {s s' : HandlingNode} (h : Attended s) (hm : BetweenMove s s') :
    Attended s' := by
  intro k hk hflag
  cases hm with
  | same hsame hir =>
    rw [rxPending, hir]
    rw [flagged, hsame.newData] at hflag
    exact h k hk hflag
  | store j e =>
    left
    exact has_or_self (by decide)

theorem Attended.moved {s s' : HandlingNode} (h : Attended s)
    (hflag : ∀ k, flagged s'.node k = true → flagged s.node k = true)
    (hpend : rxPending s'.node = rxPending s.node)
    (hahead : ∀ k, k < confMcan1RxBufferNum → flagged s'.node k = true →
      s.point.ahead k = true → s'.point.ahead k = true) : Attended s' := by
  intro k hk hf
  rcases h k hk (hflag k hf) with hnow | hbefore
  · exact .inl (hpend.trans hnow)
  · exact .inr (hahead k hk hf hbefore)

theorem Attended.statement {s s' : HandlingNode} (hw : s.node.hw = .mcan1) (h : Attended s)
    (hc : CopiedLast s .statement) (hm : StatementMove s s') : Attended s' := by
  cases hm with
  | enter hp =>
    refine h.moved (fun _ hf => hf) rfl fun k _ _ ha => ?_
    simp [hp, HandlerPoint.ahead] at ha
  | answer hp hpend =>
    intro k _ _
    exact .inr (decide_eq_true (Nat.zero_le k))
  | pass hp hpend =>
    refine h.moved (fun _ hf => hf) rfl fun k _ _ ha => ?_
    simp [hp, HandlerPoint.ahead, hpend] at ha
  | found hp _ _ =>
    refine h.moved (fun _ hf => hf) rfl fun k _ _ ha => ?_
    simpa only [hp, HandlerPoint.ahead] using ha
  | @skip i status hp _ hclear =>
    refine h.moved (fun _ hf => hf) rfl fun k _ hf ha => ?_
    simp only [hp, HandlerPoint.ahead, decide_eq_true_eq] at ha
    have hne : i ≠ k := by
      rintro rfl
      rw [hclear] at hf
      cases hf
    exact decide_eq_true (by omega)
  | @scanned i status hp hi =>
    refine h.moved (fun _ hf => hf) rfl fun k hk _ ha => ?_
    simp only [hp, HandlerPoint.ahead, decide_eq_true_eq] at ha
    exact absurd (Nat.lt_of_le_of_lt ha hk) (Nat.not_lt.mpr hi)
  | @clear i status hp =>
    refine h.moved (fun k hf => ?_) rfl fun k _ _ ha => ?_
    · have hcleared := mcanRxGetBufferStatus_clear s.node.mcan.newData i k
      have hset : (flagged s.node k && decide (k ≠ i)) = true := hcleared.symm.trans hf
      exact (Bool.and_eq_true _ _ ▸ hset).1
    · simpa only [hp, HandlerPoint.ahead] using ha
  | copy hp =>
    intro k hk hf
    rcases hc _ _ hp with hnow | hnone
    · exact .inl hnow
    · have hclear : flagged s.node k = false := hnone k hk
      rw [show flagged s.node k = true from hf] at hclear
      cases hclear
  | rest hp =>
    refine h.moved (fun k hf => ?_) (otherBranches_flag _ _) fun k _ _ ha => ?_
    · rw [flagged, (bufSame_otherBranches hw _).newData] at hf
      exact hf
    · simp [hp, HandlerPoint.ahead] at ha

structure AttendInv (s : HandlingNode) : Prop where
  hw : s.node.hw = .mcan1
  attended : Attended s

theorem statement_hw {s s' : HandlingNode} (h : s.node.hw = .mcan1) (hm : StatementMove s s') :
    s'.node.hw = .mcan1 := by
  cases hm with
  | rest hp => exact (bufSame_otherBranches h _).hw.trans h
  | _ => exact h

theorem between_hw {s s' : HandlingNode} (h : s.node.hw = .mcan1) (hm : BetweenMove s s') :
    s'.node.hw = .mcan1 := by
  cases hm with
  | same hsame _ => exact hsame.hw.trans h
  | store k e => exact h

theorem attended_boot {s : Node} (h : PowerOn s) : Attended (handlingBoot s) := by
  intro k hk hflag
  have hquiet := (bufferInv_boot h).quiet (by
    obtain ⟨_, _, _, _, hm⟩ := boot_mcan h
    rw [hm]
    exact has_zero _) k hk
  rw [show flagged (boot s) k = true from hflag] at hquiet
  cases hquiet

/-- **The waiting messages.** With frames stored between the statements of the handler, no message
is left behind without an interrupt exactly when at each copy, behind which the scan ends, no buffer
is flagged or a store has raised the interrupt again. -/
theorem attended_iff {s : Node} (h : PowerOn s) (es : List HandlingEvent) :
    handlingMachine.Always Attended (handlingBoot s) es ↔
      handlingMachine.EachStep CopiedLast (handlingBoot s) es := by
  refine Machine.always_iff_eachStep (I := AttendInv) (fun _ hi => hi.attended)
    (fun t e t' hi hc hs => ?_) (fun t e t' hi hc hs => ?_) ⟨rfl, attended_boot h⟩
  · cases e with
    | statement =>
      have hm := statement_move hs
      exact ⟨statement_hw hi.hw hm, hi.attended.statement hi.hw hc hm⟩
    | node e =>
      have hm := between_move hs
      exact ⟨between_hw hi.hw hm, hi.attended.between hm⟩
  · cases e with
    | statement =>
      simp only [CopiedLast, Classical.not_forall, not_or, Bool.not_eq_true, Bool.not_eq_false] at hc
      obtain ⟨i, status, hp, hquiet, k, hk, hflag⟩ := hc
      cases hs
      intro hattended
      rw [show t.statement = ⟨serviceRxBuffer t.node i, .scan (confMcanElementDataSize + 1) status⟩
        by simp only [HandlingNode.statement, hp]] at hattended
      rcases hattended k hk hflag with hnow | hahead
      · rw [show rxPending (serviceRxBuffer t.node i) = false from hquiet] at hnow
        cases hnow
      · exact absurd (Nat.lt_of_le_of_lt (of_decide_eq_true hahead) hk) (by decide)
    | node e => exact absurd trivial hc

/-- Two messages are stored before the handler runs. -/
theorem attended_two_stored : ¬ handlingMachine.Always Attended (handlingBoot reset)
    [.node (.rxBuffer 0 blankRxElement), .node (.rxBuffer 1 blankRxElement), .statement, .statement,
      .statement, .statement, .statement] := by
  refine (attended_iff powerOn_reset _).not.mpr fun h => ?_
  have hstored := ((h _ rfl).2 _ rfl).2
  have hcleared := ((((hstored _ rfl).2 _ rfl).2 _ rfl).2 _ rfl).2
  have hcopy := (hcleared _ rfl).1
  rcases hcopy 0 mcanRxBufferNewMessage (by decide) with hpend | hnone
  · revert hpend
    decide
  · have hsecond := hnone 1 (by decide)
    revert hsecond
    decide

/-- Where both conditions hold, the buffers are delivered whenever the handler is not running. -/
theorem delivered_when_idle {s : Node} (h : PowerOn s) {es : List HandlingEvent}
    (hclear : handlingMachine.EachStep CopiedClear (handlingBoot s) es)
    (hlast : handlingMachine.EachStep CopiedLast (handlingBoot s) es) :
    handlingMachine.Always (fun t => t.point = .idle → BuffersDelivered t.node)
      (handlingBoot s) es := by
  refine Machine.always_of_eachStep (I := fun t => CopyInv t ∧ Attended t)
    (C := fun t e => CopiedClear t e ∧ CopiedLast t e) ?_ ?_ ⟨copyInv_boot h, attended_boot h⟩
    (Machine.eachStep_and hclear hlast)
  · rintro t ⟨hcopy, hattended⟩ hidle hir k hk
    have hflag : flagged t.node k = false := by
      cases hf : flagged t.node k with
      | false => rfl
      | true =>
        rcases hattended k hk hf with hpend | hahead
        · exact absurd (hir.symm.trans hpend) Bool.false_ne_true
        · rw [hidle] at hahead
          cases hahead
    have hbox := hcopy.box k hk
    rw [hflag, hidle] at hbox
    exact ⟨hflag, Mailbox.delivered hbox⟩
  · rintro t e t' ⟨hcopy, hattended⟩ ⟨hc, hl⟩ hs
    cases e with
    | statement =>
      have hm := statement_move hs
      exact ⟨hcopy.statement hc hm, hattended.statement hcopy.hw hl hm⟩
    | node e =>
      have hm := between_move hs
      exact ⟨hcopy.between hm, hattended.between hm⟩

/-- A message, its handler run, and one that comes into another buffer while the first is copied. -/
theorem delivered_when_idle_busy :
    handlingMachine.Always (fun t => t.point = .idle → BuffersDelivered t.node) (handlingBoot reset)
      (.node (.rxBuffer 2 blankRxElement) :: List.replicate 6 .statement ++
        [.node (.rxBuffer 1 blankRxElement)] ++ List.replicate 10 .statement) :=
  delivered_when_idle powerOn_reset (by decide +kernel) (by decide +kernel)

/-! ## The handler returns -/

namespace HandlerPoint

/-- The statements that are left at most. -/
def left : HandlerPoint → Nat
  | .idle => 0
  | .entered _ => confMcan0RxBufferNum + 5
  | .scan i _ => if i < confMcan0RxBufferNum then confMcan0RxBufferNum - i + 4 else 2
  | .clear _ _ => 4
  | .copy _ _ => 3
  | .rest _ => 1

end HandlerPoint

def statements (es : List HandlingEvent) : Nat :=
  (es.filter fun e => match e with
    | .statement => true
    | .node _ => false).length

theorem left_statement {s s' : HandlingNode} (hrunning : s.point ≠ .idle)
    (hm : StatementMove s s') : s'.point.left < s.point.left := by
  cases hm with
  | enter hp => exact absurd hp hrunning
  | answer hp _ => simp [hp, HandlerPoint.left]
  | pass hp _ => simp [hp, HandlerPoint.left]
  | found hp hi _ =>
    rw [hp]
    simp only [HandlerPoint.left, if_pos hi]
    omega
  | skip hp hi _ =>
    rw [hp]
    simp only [HandlerPoint.left, if_pos hi]
    split <;> omega
  | scanned hp hi =>
    rw [hp]
    simp only [HandlerPoint.left, if_neg (Nat.not_lt.mpr hi)]
    omega
  | clear hp => rw [hp]; exact Nat.lt_succ_self 3
  | copy hp =>
    -- the index is past the last buffer
    simp only [hp, HandlerPoint.left]
    rw [if_neg (by decide)]
    exact Nat.lt_succ_self 2
  | rest hp => rw [hp]; exact Nat.zero_lt_one

theorem left_between {s s' : HandlingNode} (hm : BetweenMove s s') : s'.point = s.point := by
  cases hm <;> rfl

/-- By induction on the events: between two statements the point stays, so what is left falls. -/
theorem statements_le_left {es : List HandlingEvent} : ∀ {s s' : HandlingNode},
    handlingMachine.Always (fun t => t.point ≠ .idle) s es →
    handlingMachine.run s es = some s' → statements es ≤ s.point.left := by
  induction es with
  | nil => intro s _ _ _; exact Nat.zero_le _
  | cons e es ih =>
    rintro s s' ⟨hpoint, hrest⟩ hrun
    simp only [Machine.run] at hrun
    split at hrun
    · cases hrun
    · rename_i s1 hs
      have hbound := ih (hrest s1 hs) hrun
      cases e with
      | statement =>
        have hlt := left_statement hpoint (statement_move hs)
        have hcount : statements (.statement :: es) = statements es + 1 := rfl
        omega
      | node e =>
        rw [left_between (between_move hs)] at hbound
        exact hbound

theorem left_le (p : HandlerPoint) : p.left ≤ confMcan0RxBufferNum + 5 := by
  cases p with
  | scan i status =>
    simp only [HandlerPoint.left]
    split <;> omega
  | _ => simp [HandlerPoint.left]

/-- **The handler returns.** However many messages are stored meanwhile, after so many of its
statements the handler has returned. -/
theorem handler_returns {s s' : HandlingNode} {es : List HandlingEvent}
    (hrun : handlingMachine.run s es = some s') (hmany : confMcan0RxBufferNum + 5 < statements es) :
    ∃ pre t, pre <+: es ∧ handlingMachine.run s pre = some t ∧ t.point = .idle := by
  by_contra hnever
  have hrunning : handlingMachine.Always (fun t => t.point ≠ .idle) s es := by
    refine Machine.always_iff_prefix.mpr fun pre hpre t ht hidle => hnever ⟨pre, t, hpre, ht, hidle⟩
  have hbound := Nat.le_trans (statements_le_left hrunning hrun) (left_le s.point)
  exact absurd hmany (Nat.not_lt.mpr hbound)

/-- Buffers are filled as fast as the handler empties them. -/
theorem handler_returns_busy : ∃ pre t,
    pre <+: (List.replicate 10 [.node (.rxBuffer 0 blankRxElement), .statement]).flatten ∧
      handlingMachine.run ⟨boot reset, .scan 0 mcanRxBufferNewMessage⟩ pre = some t ∧
      t.point = .idle :=
  handler_returns rfl (by decide)

end CanNet
