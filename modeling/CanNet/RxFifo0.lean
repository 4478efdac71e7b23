import CanNet.Lib.RingReader
import CanNet.Lib.Simulation
import CanNet.Node

/-!
# CanNet.RxFifo0

Rx FIFO 0 over whole runs in which nothing is routed to FIFO 1.

Seen from FIFO 0 the node is a `RingReader`: arrivals raise RF0N, and a handler run serves one
element and, after bus-off, resets the ring. `fifo0Simulation` is that view; the two results about
runs are the reader's own.
-/

namespace CanNet

open Bits

abbrev Fifo0Reader := RingReader McanRxElement confMcan1RxFifo0Num

def fifo0Reader (s : Node) : Fifo0Reader where
  ring := s.mcan.fifo0
  index := s.standardReceiveIndex
  flag := has s.mcan.ir mcanRxFifo0NewMessage
  arrived := storedIn .fifo0 s.trace
  read := copiedFrom .fifo0 s.trace

def noFifo1 (_ : Node) : NodeEvent → Bool
  | .rxFifo1 _ => false
  | _ => true

def fifo0Label (s : Node) : NodeEvent → Option (RingEvent McanRxElement)
  | .rxFifo0 e => some (.arrive e)
  | .handler => some (.wake (has s.mcan.ir mcanBusOff))
  | _ => none

/-- The module is bound, FIFO 0 overwrites, and the software index is a cell. -/
structure Fifo0Bound (s : Node) : Prop where
  hw : s.hw = .mcan1
  overwrite : s.mcan.rxf0c.overwrite = true
  index : s.standardReceiveIndex < confMcan1RxFifo0Num

/-- What the view rests on: besides, FIFO 1 has nothing to report. -/
structure Fifo0Ready (s : Node) : Prop extends Fifo0Bound s where
  fifo1Quiet : has s.mcan.ir mcanRxFifo1NewMessage = false

/-! ## What each branch does to the view -/

theorem nextReceiveIndex_eq {n i : Nat} (h : i < n) : nextReceiveIndex n i = Ring.next n i := by
  rw [nextReceiveIndex, Ring.next]
  split
  · rename_i heq
    rw [heq, Nat.mod_self]
  · exact (Nat.mod_eq_of_lt (by omega)).symm

/-- Observations that are not about FIFO 0 leave the view alone, as far as the ring, the index and
the flag are left alone. -/
theorem fifo0Reader_of_trace {s t : Node} {l : List Obs} (htrace : t.trace = s.trace ++ l)
    (hstored : storedIn .fifo0 l = []) (hcopied : copiedFrom .fifo0 l = [])
    (hring : t.mcan.fifo0 = s.mcan.fifo0) (hindex : t.standardReceiveIndex = s.standardReceiveIndex)
    (hflag : has t.mcan.ir mcanRxFifo0NewMessage = has s.mcan.ir mcanRxFifo0NewMessage) :
    fifo0Reader t = fifo0Reader s := by
  simp only [fifo0Reader, htrace, storedIn_append, copiedFrom_append, hstored, hcopied,
    List.append_nil, hring, hindex, hflag]

theorem copiedFrom_bufferReport (m : Mcan) (ks : List Nat) :
    copiedFrom .fifo0 (ks.map (bufferReport m)) = [] := by
  rw [copiedFrom, List.filterMap_eq_nil_iff]
  intro o ho
  obtain ⟨k, _, rfl⟩ := List.mem_map.mp ho
  simp [bufferReport]

theorem storedIn_bufferReport (m : Mcan) (ks : List Nat) :
    storedIn .fifo0 (ks.map (bufferReport m)) = [] := by
  rw [storedIn, List.filterMap_eq_nil_iff]
  intro o ho
  obtain ⟨k, _, rfl⟩ := List.mem_map.mp ho
  rfl

theorem fifo0Reader_rxBufferBranch {s : Node} (h : s.hw = .mcan1) :
    fifo0Reader (rxBufferBranch s) = fifo0Reader s := by
  rw [rxBufferBranch_eq h]
  exact fifo0Reader_of_trace rfl (storedIn_bufferReport _ _) (copiedFrom_bufferReport _ _) rfl rfl
    (has_clear_of_disjoint (by decide))

theorem fifo0Reader_fifo0Branch {s : Node} (h : s.hw = .mcan1)
    (hindex : s.standardReceiveIndex < confMcan1RxFifo0Num)
    (hflag : has s.mcan.ir mcanRxFifo0NewMessage = true) :
    fifo0Reader (fifo0Branch s) = (fifo0Reader s).serve := by
  have hsix : s.standardReceiveIndex % 64 = s.standardReceiveIndex :=
    Nat.mod_eq_of_lt (Nat.lt_of_lt_of_le hindex (by decide))
  rw [RingReader.serve_of_flag hflag, fifo0Branch_eq h]
  simp only [fifo0Reader, storedIn_append, copiedFrom_append, hsix, has_clear_self,
    nextReceiveIndex_eq hindex]
  simp [storedIn, copiedFrom, fifo0Report]

theorem fifo0Reader_protocolErrorBranch (s : Node) :
    fifo0Reader (protocolErrorBranch s) = fifo0Reader s :=
  fifo0Reader_of_trace rfl rfl rfl rfl rfl (has_clear_of_disjoint (by decide))

theorem fifo0Reader_busOffBranch (s : Node) :
    fifo0Reader (busOffBranch s) = (fifo0Reader s).reset true := by
  have hflag : has (s.mcan.ir &&& ~~~mcanBusOff) mcanRxFifo0NewMessage =
      has s.mcan.ir mcanRxFifo0NewMessage := has_clear_of_disjoint (by decide)
  have hindex : (busOffBranch s).standardReceiveIndex = s.standardReceiveIndex := rfl
  obtain ⟨_, _, _, hm⟩ := busOffBranch_mcan s
  simp only [fifo0Reader, hm, hflag, hindex, busOffBranch_trace, storedIn_append,
    copiedFrom_append, RingReader.reset, if_true]
  simp [storedIn, copiedFrom]

/-- A handler run serves one element, and resets the ring if it finds bus-off. -/
theorem fifo0Reader_handler {s : Node} (h : Fifo0Ready s) :
    fifo0Reader (mcan1Int0Handler s) =
      (fifo0Reader s).serve.reset (has s.mcan.ir mcanBusOff) := by
  rw [mcan1Int0Handler_eq, h.fifo1Quiet, guarded_false]
  obtain ⟨hw1, _, _, hindex1, _⟩ :=
    guarded_rxBufferBranch_keeps h.hw (has s.mcan.ir mcanRxBufferNewMessage)
  have hview1 : fifo0Reader (guarded (has s.mcan.ir mcanRxBufferNewMessage) rxBufferBranch s) =
      fifo0Reader s := by
    cases has s.mcan.ir mcanRxBufferNewMessage with
    | false => rfl
    | true => exact fifo0Reader_rxBufferBranch h.hw
  generalize guarded (has s.mcan.ir mcanRxBufferNewMessage) rxBufferBranch s = s1
    at hw1 hindex1 hview1 ⊢
  have hflag1 : has s1.mcan.ir mcanRxFifo0NewMessage = has s.mcan.ir mcanRxFifo0NewMessage :=
    congrArg RingReader.flag hview1
  have h2 : fifo0Reader (guarded (has s.mcan.ir mcanRxFifo0NewMessage) fifo0Branch s1) =
      (fifo0Reader s).serve := by
    rw [← hview1, ← hflag1]
    cases hf : has s1.mcan.ir mcanRxFifo0NewMessage with
    | false => exact (RingReader.serve_of_not_flag hf).symm
    | true => exact fifo0Reader_fifo0Branch hw1 (hindex1 ▸ h.index) hf
  generalize guarded (has s.mcan.ir mcanRxFifo0NewMessage) fifo0Branch s1 = s2 at h2 ⊢
  have h3 : ∀ b, fifo0Reader (guarded b protocolErrorBranch s2) = (fifo0Reader s).serve := by
    intro b
    cases b with
    | false => exact h2
    | true => exact (fifo0Reader_protocolErrorBranch s2).trans h2
  cases has s.mcan.ir mcanBusOff with
  | false => exact h3 _
  | true => rw [guarded_true, fifo0Reader_busOffBranch, h3]

/-! ## The view as a simulation -/

/-- Every event but an arrival in FIFO 0 and a handler run leaves the view alone. -/
theorem fifo0Reader_quiet {s s' : Node} {e : NodeEvent} (hl : fifo0Label s e = none)
    (hs : nodeMachine.step s e = some s') :
    fifo0Reader s' = fifo0Reader s ∧ s'.hw = s.hw ∧ s'.mcan.rxf0c = s.mcan.rxf0c := by
  cases e with
  | txMessage idValue length data txElement =>
    obtain ⟨e, _, hcase⟩ := txMessage_step hs
    rcases hcase with ⟨_, rfl⟩ | ⟨_, _, rfl⟩ | ⟨_, _, rfl⟩
    · exact ⟨rfl, rfl, rfl⟩
    · exact ⟨rfl, rfl, rfl⟩
    · refine ⟨?_, rfl, rfl⟩
      exact fifo0Reader_of_trace (List.append_assoc _ _ _) rfl rfl rfl rfl rfl
  | busStep =>
    obtain ⟨_, rfl⟩ := busStep_step hs
    exact ⟨fifo0Reader_of_trace rfl rfl rfl rfl rfl rfl, rfl, rfl⟩
  | rxBuffer k e =>
    cases hs
    refine ⟨?_, rfl, rfl⟩
    exact fifo0Reader_of_trace rfl rfl rfl rfl rfl (has_or_of_disjoint (by decide))
  | rxFifo0 e => cases hl
  | rxFifo1 e =>
    cases hs
    refine ⟨?_, rfl, rfl⟩
    exact fifo0Reader_of_trace rfl rfl rfl rfl rfl (has_or_of_disjoint (by decide))
  | busOff =>
    cases hs
    refine ⟨?_, rfl, rfl⟩
    exact fifo0Reader_of_trace (List.append_nil _).symm rfl rfl rfl rfl
      (has_or_of_disjoint (by decide))
  | raise flags =>
    cases hs
    refine ⟨?_, rfl, rfl⟩
    exact fifo0Reader_of_trace (List.append_nil _).symm rfl rfl rfl rfl
      (has_or_otherFlags (by decide))
  | handler => cases hl

theorem fifo0Reader_arrive {s : Node} (h : Fifo0Bound s) (e : McanRxElement) :
    fifo0Reader ((s.onMcan (Mcan.storeFifo0 e)).emit (.stored .fifo0 e)) =
      (fifo0Reader s).arrive e := by
  have hflag : has (s.mcan.ir ||| mcanRxFifo0NewMessage) mcanRxFifo0NewMessage = true :=
    has_or_self (by decide)
  simp only [fifo0Reader, RingReader.arrive, Node.emit_mcan, Node.onMcan_mcan, Mcan.storeFifo0,
    h.overwrite, hflag, Node.emit_trace, Node.onMcan_trace, storedIn_append, copiedFrom_append,
    Node.emit_standardReceiveIndex, Node.onMcan_standardReceiveIndex]
  simp [storedIn, copiedFrom]

theorem handler_fifo0Config {s : Node} (hw : s.hw = .mcan1)
    (ho : s.mcan.rxf0c.overwrite = true) :
    (mcan1Int0Handler s).hw = .mcan1 ∧ (mcan1Int0Handler s).mcan.rxf0c.overwrite = true := by
  refine mcan1Int0Handler_keeps (Q := fun t => t.hw = .mcan1 ∧ t.mcan.rxf0c.overwrite = true)
    ⟨hw, ho⟩ ?_ ?_ ?_ ?_ ?_
  · intro t ht
    rw [rxBufferBranch_eq ht.1]
    exact ht
  · intro t ht; exact ht
  · intro _ t ht; exact ht
  · intro t ht; exact ht
  · intro _ t _
    obtain ⟨_, _, _, hm⟩ := busOffBranch_mcan t
    exact ⟨rfl, by rw [hm]⟩

/-- A handler run may not take the FIFO 1 branch here. -/
theorem Fifo0Bound.step {s s' : Node} {e : NodeEvent} (h : Fifo0Bound s)
    (hc : e = .handler → has s.mcan.ir mcanRxFifo1NewMessage = false)
    (hs : nodeMachine.step s e = some s') : Fifo0Bound s' := by
  cases hl : fifo0Label s e with
  | none =>
    obtain ⟨hview, hw, hcfg⟩ := fifo0Reader_quiet hl hs
    have hindex : s'.standardReceiveIndex = s.standardReceiveIndex :=
      congrArg RingReader.index hview
    exact ⟨hw.trans h.hw, hcfg ▸ h.overwrite, hindex ▸ h.index⟩
  | some d =>
    cases e with
    | rxFifo0 e => cases hs; exact ⟨h.hw, h.overwrite, h.index⟩
    | handler =>
      cases hs
      obtain ⟨hw, ho⟩ := handler_fifo0Config h.hw h.overwrite
      refine ⟨hw, ho, ?_⟩
      have hindex : (mcan1Int0Handler s).standardReceiveIndex =
          ((fifo0Reader s).serve.reset (has s.mcan.ir mcanBusOff)).index :=
        congrArg RingReader.index (fifo0Reader_handler ⟨h, hc rfl⟩)
      rw [hindex, RingReader.reset_index]
      cases hf : (fifo0Reader s).flag with
      | false => rw [RingReader.serve_of_not_flag hf]; exact h.index
      | true => rw [RingReader.serve_of_flag hf]; exact Ring.next_lt (by decide) _
    | _ => cases hl

theorem Fifo0Ready.step {s s' : Node} {e : NodeEvent} (h : Fifo0Ready s)
    (hs : (nodeMachine.only noFifo1).step s e = some s') : Fifo0Ready s' := by
  obtain ⟨hk, hs⟩ := Machine.only_step.mp hs
  refine ⟨h.toFifo0Bound.step (fun _ => h.fifo1Quiet) hs, ?_⟩
  refine flag_clear_step h.fifo1Quiet (raisedBy_rxFifo1 ?_) hs
  rintro x rfl
  cases hk

def fifo0Simulation :
    Simulation (nodeMachine.only noFifo1) (RingReader.machine McanRxElement confMcan1RxFifo0Num) where
  inv := Fifo0Ready
  view := fifo0Reader
  label := fifo0Label
  keeps s e s' h hs := h.step hs
  quiet s e s' h hs hl := (fifo0Reader_quiet hl (Machine.only_step.mp hs).2).1
  visible s e s' d h hs hl := by
    obtain ⟨_, hs⟩ := Machine.only_step.mp hs
    cases e with
    | rxFifo0 e => cases hl; cases hs; exact congrArg some (fifo0Reader_arrive h.toFifo0Bound e).symm
    | handler => cases hl; cases hs; exact congrArg some (fifo0Reader_handler h).symm
    | _ => cases hl

theorem fifo0Ready_boot {s : Node} (h : PowerOn s) : Fifo0Ready (boot s) := by
  obtain ⟨_, _, _, _, hm⟩ := boot_mcan h
  have hindex : (boot s).standardReceiveIndex = 0 := h.standardReceiveIndex
  refine ⟨⟨rfl, ?_, ?_⟩, ?_⟩
  · rw [hm]
  · rw [hindex]; decide
  · rw [hm]; exact has_zero _

/-- After start-up the ring is empty and nothing has arrived. -/
theorem fifo0Reader_boot {s : Node} (h : PowerOn s) :
    fifo0Reader (boot s) =
      { ring := s.mcan.fifo0.clear, index := 0, flag := false, arrived := [], read := [] } := by
  obtain ⟨_, _, _, _, hm⟩ := boot_mcan h
  have hindex : (boot s).standardReceiveIndex = 0 := h.standardReceiveIndex
  have htrace : (boot s).trace = [] := h.trace
  simp [fifo0Reader, hm, hindex, htrace, storedIn, copiedFrom]

/-! ## Draining FIFO 0 -/

/-- No frame arrives in a full FIFO 0, and the bus stays on. -/
def noOverflow (s : Node) : NodeEvent → Bool
  | .rxFifo0 _ => s.mcan.fifo0.fill < confMcan1RxFifo0Num
  | .busOff => false
  | _ => true

/-- With RF0N not pending FIFO 0 is empty, and the frames copied out are the ones that arrived. -/
def Fifo0Drained (s : Node) : Prop :=
  has s.mcan.ir mcanRxFifo0NewMessage = false →
    s.mcan.fifo0.fill = 0 ∧ copiedFrom .fifo0 s.trace = storedIn .fifo0 s.trace

/-- No handler run that answers RF0N finds two unread frames. -/
def OneUnread (s : Node) : NodeEvent → Prop
  | .handler => has s.mcan.ir mcanRxFifo0NewMessage = true → s.mcan.fifo0.fill ≤ 1
  | _ => True

theorem noOverflow_busOff {s s' : Node} {e : NodeEvent}
    (hs : ((nodeMachine.only noFifo1).only noOverflow).step s e = some s') : e ≠ .busOff := by
  rintro rfl
  cases (Machine.only_step.mp hs).1

def fifo0DrainSimulation :
    Simulation ((nodeMachine.only noFifo1).only noOverflow)
      ((RingReader.machine McanRxElement confMcan1RxFifo0Num).only RingReader.roomy) :=
  fifo0Simulation.only (fun s => has s.mcan.ir mcanBusOff = false)
    (fun _ _ _ _ h hs => flag_clear_step h (raisedBy_busOff (noOverflow_busOff hs))
      (Machine.only_step.mp (Machine.only_step.mp hs).2).2)
    fun s e d _ hb hk hl => by
      cases e with
      | rxFifo0 e => cases hl; exact hk
      | handler =>
        cases hl
        show (!has s.mcan.ir mcanBusOff) = true
        rw [hb]
        rfl
      | _ => cases hl

theorem settled_boot {s : Node} (h : PowerOn s) : (fifo0Reader (boot s)).Settled := by
  rw [fifo0Reader_boot h]
  refine ⟨⟨Ring.coherent_clear _, rfl, ?_, fun hf => by cases hf⟩, fun _ => rfl⟩
  exact ((Ring.contents_eq_nil _).mpr rfl).symm

/-- **FIFO 0 drains.** Without overflow no frame is stranded in FIFO 0 exactly when no handler run
that answers RF0N finds two unread frames. -/
theorem fifo0_drained_iff {s : Node} (h : PowerOn s) (es : List NodeEvent) :
    ((nodeMachine.only noFifo1).only noOverflow).Always Fifo0Drained (boot s) es ↔
      ((nodeMachine.only noFifo1).only noOverflow).EachStep OneUnread (boot s) es := by
  have hinv : fifo0DrainSimulation.inv (boot s) := by
    obtain ⟨_, _, _, _, hm⟩ := boot_mcan h
    refine ⟨fifo0Ready_boot h, ?_⟩
    show has (boot s).mcan.ir mcanBusOff = false
    rw [hm]
    exact has_zero _
  have hreader := RingReader.drained_iff (settled_boot h)
    (fifo0DrainSimulation.labels (boot s) es)
  have halways := fifo0DrainSimulation.always_iff (P := RingReader.Drained) es hinv
  have heach := fifo0DrainSimulation.eachStep_iff (C := RingReader.AtMostOne) es hinv
  refine halways.trans (hreader.trans (heach.symm.trans (Machine.eachStep_congr fun s e => ?_)))
  cases e with
  | handler =>
    constructor
    · intro hc; exact hc _ rfl
    · intro hc d hd; cases hd; exact hc
  | rxFifo0 e =>
    constructor
    · intro _; trivial
    · intro _ d hd; cases hd; trivial
  | _ =>
    constructor
    · intro _; trivial
    · intro _ d hd; cases hd

/-- One arrival and the handler run that answers it. -/
theorem fifo0_drained_one_arrival :
    ((nodeMachine.only noFifo1).only noOverflow).Always Fifo0Drained (boot reset)
      [.rxFifo0 blankRxElement, .handler] := by
  refine (fifo0_drained_iff powerOn_reset _).mpr ?_
  intro s1 h1
  cases h1
  refine ⟨trivial, ?_⟩
  intro s2 _
  exact ⟨fun _ => by decide, trivial⟩

instance : DecidablePred Fifo0Drained := fun s =>
  inferInstanceAs (Decidable (has s.mcan.ir mcanRxFifo0NewMessage = false →
    s.mcan.fifo0.fill = 0 ∧ copiedFrom .fifo0 s.trace = storedIn .fifo0 s.trace))

/-- Two arrivals before the handler runs. -/
theorem fifo0_drained_two_arrivals :
    ¬ ((nodeMachine.only noFifo1).only noOverflow).Always Fifo0Drained (boot reset)
      [.rxFifo0 blankRxElement, .rxFifo0 blankRxElement, .handler] := by
  apply Machine.not_always_of_run
  decide

/-! ## Staying in step with FIFO 0 -/

/-- While FIFO 0 holds a frame the software index is the get index, so what is copied next is the
oldest unread frame. -/
def Fifo0InStep (s : Node) : Prop :=
  0 < s.mcan.fifo0.fill →
    s.standardReceiveIndex = s.mcan.fifo0.get ∧
      s.mcan.fifo0.contents.head? = some (s.mcan.fifo0.cells s.standardReceiveIndex)

/-- The history: whether the last re-initialisation left `standard_receive_index` at a cell other
than the first. The run that re-initialises first moves the index past the frame it copies. -/
def indexLeftBehind (w : Bool) (s : Node) : NodeEvent → Bool
  | .handler =>
    if has s.mcan.ir mcanBusOff then
      if has s.mcan.ir mcanRxFifo0NewMessage then
        decide (nextReceiveIndex confMcan0RxFifo0Num s.standardReceiveIndex ≠ 0)
      else decide (s.standardReceiveIndex ≠ 0)
    else w
  | _ => w

/-- No frame arrives in a full FIFO 0, nor after such a re-initialisation. -/
def ArrivesOnTime (p : Node × Bool) : NodeEvent → Prop
  | .rxFifo0 _ => p.1.mcan.fifo0.fill < confMcan1RxFifo0Num ∧ p.2 = false
  | _ => True

theorem indexLeftBehind_handler {s : Node} (h : Fifo0Ready s) (w : Bool) :
    indexLeftBehind w s .handler =
      RingReader.displaced w (fifo0Reader s) (.wake (has s.mcan.ir mcanBusOff)) := by
  simp only [indexLeftBehind, RingReader.displaced]
  cases hf : has s.mcan.ir mcanRxFifo0NewMessage with
  | false =>
    rw [RingReader.serve_of_not_flag hf]
    rfl
  | true =>
    rw [RingReader.serve_of_flag hf, nextReceiveIndex_eq h.index]
    rfl

def fifo0StepSimulation :
    Simulation ((nodeMachine.only noFifo1).withHistory indexLeftBehind)
      ((RingReader.machine McanRxElement confMcan1RxFifo0Num).withHistory RingReader.displaced) :=
  fifo0Simulation.withHistory indexLeftBehind RingReader.displaced
    (fun w s e hl => by
      cases e with
      | handler => cases hl
      | _ => rfl)
    fun w s e d h hl => by
      cases e with
      | rxFifo0 e => cases hl; rfl
      | handler => cases hl; exact indexLeftBehind_handler h w
      | _ => cases hl

theorem aligned_boot {s : Node} (h : PowerOn s) :
    RingReader.Aligned (fifo0Reader (boot s), false) := by
  rw [fifo0Reader_boot h]
  refine ⟨?_, fun _ => rfl, ?_⟩
  · intro hf; cases hf
  · intro hw; cases hw

/-- **FIFO 0 in step.** The software index follows FIFO 0 exactly when no frame arrives in a full
FIFO 0 or after a re-initialisation that left the index elsewhere than at the first cell. -/
theorem fifo0_inStep_iff {s : Node} (h : PowerOn s) (es : List NodeEvent) :
    (nodeMachine.only noFifo1).Always Fifo0InStep (boot s) es ↔
      ((nodeMachine.only noFifo1).withHistory indexLeftBehind).EachStep ArrivesOnTime
        (boot s, false) es := by
  have hinv : fifo0StepSimulation.inv (boot s, false) := fifo0Ready_boot h
  have hreader := RingReader.inStep_iff (by decide) (aligned_boot h)
    (fifo0StepSimulation.labels (boot s, false) es)
  have halways := fifo0StepSimulation.always_iff
    (P := fun p => RingReader.InStep p.1) es hinv
  have heach := fifo0StepSimulation.eachStep_iff (C := RingReader.OnTime) es hinv
  rw [← Machine.always_withHistory (u := indexLeftBehind) (w := false)]
  refine halways.trans (hreader.trans (heach.symm.trans (Machine.eachStep_congr fun p e => ?_)))
  cases e with
  | rxFifo0 e =>
    constructor
    · intro hc; exact hc _ rfl
    · intro hc d hd; cases hd; exact hc
  | handler =>
    constructor
    · intro _; trivial
    · intro _ d hd; cases hd; trivial
  | _ =>
    constructor
    · intro _; trivial
    · intro _ d hd; cases hd

theorem fifo0_inStep_one_arrival :
    (nodeMachine.only noFifo1).Always Fifo0InStep (boot reset)
      [.rxFifo0 blankRxElement, .handler] := by
  refine (fifo0_inStep_iff powerOn_reset _).mpr ?_
  intro p1 _
  refine ⟨⟨by decide, rfl⟩, ?_⟩
  intro p2 _
  exact ⟨trivial, trivial⟩

/-- A fifth arrival before the handler runs overwrites the cell the software index is at. -/
theorem fifo0_inStep_overwritten :
    ¬ (nodeMachine.only noFifo1).Always Fifo0InStep (boot reset)
      (List.replicate 5 (.rxFifo0 blankRxElement)) := by
  intro h
  have hindex : (nodeMachine.only noFifo1).Always
      (fun s => 0 < s.mcan.fifo0.fill → s.standardReceiveIndex = s.mcan.fifo0.get) (boot reset)
      (List.replicate 5 (.rxFifo0 blankRxElement)) :=
    Machine.always_mono (fun _ hs hpos => (hs hpos).1) h
  revert hindex
  apply Machine.not_always_of_run
  decide

end CanNet
