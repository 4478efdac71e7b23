import Mathlib.Data.Nat.Find
import CanNet.Controller

/-!
# CanNet.Handler

`MCAN1_INT0_Handler`, one definition for each of its branches.

The scan of the Rx buffers and the loop that prints a buffer share the index `i`, so
`rxBufferScan` resumes after the print loop's final value. It is written over the new-data flags
alone: it yields the flags it leaves and the indices it services, in order.
-/

namespace CanNet

open Bits

/-! ## Rx buffer branch -/

theorem clearBufferStatus_lt {nd : NewData} {i : Nat} (h : mcanRxGetBufferStatus nd i = true) :
    (mcanRxClearBufferStatus nd i).ndat1.toNat + (mcanRxClearBufferStatus nd i).ndat2.toNat <
      nd.ndat1.toNat + nd.ndat2.toNat := by
  unfold mcanRxGetBufferStatus at h
  unfold mcanRxClearBufferStatus
  split at h
  · rename_i hi
    have := clear_lt h
    simp only [hi, if_true, NewData.writeNdat1]
    omega
  · rename_i hi
    have := clear_lt h
    simp only [hi, if_false, NewData.writeNdat2]
    omega

/-- The two nested loops, from outer index `i`: `num` is the number of Rx buffers, `size` the
element data size the print loop counts to. -/
def rxBufferScan (num size i : Nat) (nd : NewData) : NewData × List Nat :=
  if i < num then
    if h : mcanRxGetBufferStatus nd i = true then
      -- the print loop leaves `i = size`, then `i++`
      let r := rxBufferScan num size (size + 1) (mcanRxClearBufferStatus nd i)
      (r.1, i :: r.2)
    else rxBufferScan num size (i + 1) nd
  else (nd, [])
termination_by (nd.ndat1.toNat + nd.ndat2.toNat, num - i)
decreasing_by
  · exact Prod.Lex.left _ _ (clearBufferStatus_lt h)
  · exact Prod.Lex.right _ (by omega)

def printData (e : McanRxElement) (n : Nat) : List (Option Byte) :=
  (List.range n).map fun i => e.data[i]?

def rxBufferHeader (e : McanRxElement) : String :=
  if e.xtd then "\n\r Extended FD message received in Rx buffer. The received data is: \r\n"
  else "\n\r Standard FD message received in Rx buffer. The received data is: \r\n"

/-- The part of the scan's body that copies and prints the element of a flagged buffer. -/
def serviceRxBuffer (s : Node) (k : Nat) : Node :=
  let e := (mcanGetRxBufferElement s s.rxElementBuffer k).2
  ({ s with rxElementBuffer := e } : Node).emit
    (.copied (.buffer k) e (rxBufferHeader e) (printData e confMcanElementDataSize))

def rxBufferBranch (s : Node) : Node :=
  let s := mcanClearInterruptStatus mcanRxBufferNewMessage s
  let r := rxBufferScan confMcan0RxBufferNum confMcanElementDataSize 0 s.mcan.newData
  r.2.foldl serviceRxBuffer (s.onMcan fun m => { m with newData := r.1 })

/-! ## FIFO branches -/

def nextReceiveIndex (num index : Nat) : Nat := if index + 1 = num then 0 else index + 1

def fifo0Header (e : McanRxElement) : String :=
  if e.edl then "\n\r Standard FD message received in FIFO 0. The received data is: \r\n"
  else "\n\r Standard normal message received in FIFO 0. The received data is: \r\n"

def fifo0Branch (s : Node) : Node :=
  let s := mcanClearInterruptStatus mcanRxFifo0NewMessage s
  let e := (mcanGetRxFifo0Element s s.rxElementFifo0 s.standardReceiveIndex).2
  let s := mcanRxFifoAcknowledge false s.standardReceiveIndex { s with rxElementFifo0 := e }
  let s := { s with
    standardReceiveIndex := nextReceiveIndex confMcan0RxFifo0Num s.standardReceiveIndex }
  s.emit (.copied .fifo0 e (fifo0Header e)
    (printData e (if e.edl then confMcanElementDataSize else e.dlc.toNat)))

/-- The acknowledge names FIFO 0, as the source does. -/
def fifo1Branch (s : Node) : Node :=
  let s := mcanClearInterruptStatus mcanRxFifo1NewMessage s
  let e := (mcanGetRxFifo1Element s s.rxElementFifo1 s.extendedReceiveIndex).2
  let s := mcanRxFifoAcknowledge false s.extendedReceiveIndex { s with rxElementFifo1 := e }
  let s := { s with
    extendedReceiveIndex := nextReceiveIndex confMcan0RxFifo1Num s.extendedReceiveIndex }
  s.emit (.copied .fifo1 e
    "\n\r Extended FD message received in FIFO 1. The received data is: \r\n"
    (printData e confMcanElementDataSize))

/-! ## Error branches -/

def protocolErrorBranch (s : Node) : Node :=
  let s := mcanClearInterruptStatus (mcanAcknowledgeError ||| mcanFormatError) s
  s.emit (.message "Protocol error, please double check the clock in two boards. \r\n\r\n")

def busOffBranch (s : Node) : Node :=
  let s := mcanClearInterruptStatus mcanBusOff s
  let s := mcanStop s
  let s := s.emit (.message ": MCAN bus off error, re-initialization. \r\n\r\n")
  canInit s

/-! ## The handler -/

def mcan1Int0Handler (s : Node) : Node :=
  let status := mcanReadInterruptStatus s
  let s := if has status mcanRxBufferNewMessage then rxBufferBranch s else s
  let s := if has status mcanRxFifo0NewMessage then fifo0Branch s else s
  let s := if has status mcanRxFifo1NewMessage then fifo1Branch s else s
  let s := if has status mcanAcknowledgeError || has status mcanFormatError then
    protocolErrorBranch s else s
  if has status mcanBusOff then busOffBranch s else s

/-! ## What the scan does -/

theorem rxBufferScan_past {num size i : Nat} (nd : NewData) (h : num ≤ i) :
    rxBufferScan num size i nd = (nd, []) := by
  rw [rxBufferScan, if_neg (by omega)]

theorem rxBufferScan_flagged {num size i : Nat} {nd : NewData} (hi : i < num)
    (h : mcanRxGetBufferStatus nd i = true) :
    rxBufferScan num size i nd =
      ((rxBufferScan num size (size + 1) (mcanRxClearBufferStatus nd i)).1,
        i :: (rxBufferScan num size (size + 1) (mcanRxClearBufferStatus nd i)).2) := by
  rw [rxBufferScan, if_pos hi, dif_pos h]

theorem rxBufferScan_clear {num size i : Nat} {nd : NewData}
    (h : mcanRxGetBufferStatus nd i = false) :
    rxBufferScan num size i nd = rxBufferScan num size (i + 1) nd := by
  by_cases hi : i < num
  · rw [rxBufferScan, if_pos hi, dif_neg (by simp [h])]
  · rw [rxBufferScan_past nd (by omega), rxBufferScan_past nd (by omega)]

/-- When the print loop runs past the last buffer, the scan ends with the first flagged one. -/
theorem rxBufferScan_first {num size k : Nat} {nd : NewData} (hsize : num ≤ size + 1)
    (hk : k < num) (h : mcanRxGetBufferStatus nd k = true) :
    ∀ d i, i + d = k → (∀ j, i ≤ j → j < k → mcanRxGetBufferStatus nd j = false) →
      rxBufferScan num size i nd = (mcanRxClearBufferStatus nd k, [k]) := by
  intro d
  induction d with
  | zero =>
    intro i hik _
    have : i = k := by omega
    subst this
    rw [rxBufferScan_flagged hk h, rxBufferScan_past _ hsize]
  | succ d ih =>
    intro i hik hlow
    rw [rxBufferScan_clear (hlow i (Nat.le_refl i) (by omega))]
    exact ih (i + 1) (by omega) fun j hj hjk => hlow j (by omega) hjk

theorem rxBufferScan_none {num size : Nat} {nd : NewData}
    (h : ∀ j, j < num → mcanRxGetBufferStatus nd j = false) :
    ∀ d i, i + d = num → rxBufferScan num size i nd = (nd, []) := by
  intro d
  induction d with
  | zero => intro i hi; exact rxBufferScan_past nd (by omega)
  | succ d ih =>
    intro i hi
    rw [rxBufferScan_clear (h i (by omega))]
    exact ih (i + 1) (by omega)

/-- What the scan of the configured buffers comes to: the lowest flagged one. -/
theorem rxBufferScan_cases (nd : NewData) :
    ((∀ j, j < confMcan0RxBufferNum → mcanRxGetBufferStatus nd j = false) ∧
      rxBufferScan confMcan0RxBufferNum confMcanElementDataSize 0 nd = (nd, [])) ∨
    ∃ k, k < confMcan0RxBufferNum ∧ mcanRxGetBufferStatus nd k = true ∧
      rxBufferScan confMcan0RxBufferNum confMcanElementDataSize 0 nd =
        (mcanRxClearBufferStatus nd k, [k]) := by
  by_cases h : ∃ k, k < confMcan0RxBufferNum ∧ mcanRxGetBufferStatus nd k = true
  · right
    obtain ⟨hk, hflag⟩ := Nat.find_spec h
    refine ⟨Nat.find h, hk, hflag, ?_⟩
    refine rxBufferScan_first (by decide) hk hflag (Nat.find h) 0 (by omega) fun j _ hj => ?_
    cases hf : mcanRxGetBufferStatus nd j with
    | false => rfl
    | true => exact absurd ⟨Nat.lt_trans hj hk, hf⟩ (Nat.find_min h hj)
  · left
    have hclear : ∀ j, j < confMcan0RxBufferNum → mcanRxGetBufferStatus nd j = false := by
      intro j hj
      cases hf : mcanRxGetBufferStatus nd j with
      | false => rfl
      | true => exact absurd ⟨j, hj, hf⟩ h
    exact ⟨hclear, rxBufferScan_none hclear confMcan0RxBufferNum 0 rfl⟩

/-- Clearing one flag leaves the others as they are. -/
theorem mcanRxGetBufferStatus_clear (nd : NewData) (i j : Nat) :
    mcanRxGetBufferStatus (mcanRxClearBufferStatus nd i) j =
      (mcanRxGetBufferStatus nd j && decide (j ≠ i)) := by
  by_cases hi : i < 32
  · by_cases hj : j < 32
    · simp only [mcanRxGetBufferStatus, mcanRxClearBufferStatus, hi, hj, if_true]
      exact has_clear_oneBit nd.ndat1
    · have hne : j ≠ i := by omega
      simp [mcanRxGetBufferStatus, mcanRxClearBufferStatus, hi, hj, NewData.writeNdat1, hne]
  · by_cases hj : j < 32
    · have hne : j ≠ i := by omega
      simp [mcanRxGetBufferStatus, mcanRxClearBufferStatus, hi, hj, NewData.writeNdat2, hne]
    · simp only [mcanRxGetBufferStatus, mcanRxClearBufferStatus, hi, hj, if_false]
      have hiff : (j - 32 ≠ i - 32) ↔ (j ≠ i) := by omega
      rw [← decide_eq_decide.mpr hiff]
      exact has_clear_oneBit nd.ndat2

/-- Storing into a buffer sets its flag and no other. -/
theorem mcanRxGetBufferStatus_store (m : Mcan) (e : McanRxElement) {k j : Nat} (hk : k < 32)
    (hj : j < 32) :
    mcanRxGetBufferStatus (m.storeRxBuffer k e).newData j =
      (mcanRxGetBufferStatus m.newData j || decide (j = k)) := by
  simp only [mcanRxGetBufferStatus, Mcan.storeRxBuffer, hk, hj, if_true]
  exact has_or_oneBit m.newData.ndat1 hj

/-! ## What each branch does -/

def bufferReport (m : Mcan) (k : Nat) : Obs :=
  .copied (.buffer k) (m.rxBuffer k) (rxBufferHeader (m.rxBuffer k))
    (printData (m.rxBuffer k) confMcanElementDataSize)

theorem foldl_serviceRxBuffer (ks : List Nat) : ∀ {s : Node}, s.hw = .mcan1 →
    ks.foldl serviceRxBuffer s =
      { s with
        rxElementBuffer := ks.foldl (fun _ k => s.mcan.rxBuffer k) s.rxElementBuffer
        trace := s.trace ++ ks.map (bufferReport s.mcan) } := by
  induction ks with
  | nil => intro s _; simp
  | cons k ks ih =>
    intro s h
    have he : serviceRxBuffer s k =
        { s with rxElementBuffer := s.mcan.rxBuffer k
                 trace := s.trace ++ [bufferReport s.mcan k] } := by
      simp [serviceRxBuffer, mcanGetRxBufferElement, getRxElement, h, Node.emit, bufferReport]
    rw [List.foldl_cons, he, ih]
    · simp
    · exact h

def rxBufferScanned (s : Node) : NewData × List Nat :=
  rxBufferScan confMcan0RxBufferNum confMcanElementDataSize 0 s.mcan.newData

theorem rxBufferBranch_eq {s : Node} (h : s.hw = .mcan1) :
    rxBufferBranch s =
      { s with
        mcan := { s.mcan with
          ir := s.mcan.ir &&& ~~~mcanRxBufferNewMessage
          newData := (rxBufferScanned s).1 }
        rxElementBuffer :=
          (rxBufferScanned s).2.foldl (fun _ k => s.mcan.rxBuffer k) s.rxElementBuffer
        trace := s.trace ++ (rxBufferScanned s).2.map (bufferReport s.mcan) } := by
  rw [rxBufferBranch, foldl_serviceRxBuffer]
  · rfl
  · exact h

def fifo0Report (e : McanRxElement) : Obs :=
  .copied .fifo0 e (fifo0Header e)
    (printData e (if e.edl then confMcanElementDataSize else e.dlc.toNat))

theorem fifo0Branch_eq {s : Node} (h : s.hw = .mcan1) :
    fifo0Branch s =
      { s with
        mcan := { s.mcan with
          ir := s.mcan.ir &&& ~~~mcanRxFifo0NewMessage
          fifo0 := s.mcan.fifo0.ack (s.standardReceiveIndex % 64) }
        rxElementFifo0 := s.mcan.fifo0.cells s.standardReceiveIndex
        standardReceiveIndex := nextReceiveIndex confMcan0RxFifo0Num s.standardReceiveIndex
        trace := s.trace ++ [fifo0Report (s.mcan.fifo0.cells s.standardReceiveIndex)] } := by
  have he : (mcanGetRxFifo0Element (mcanClearInterruptStatus mcanRxFifo0NewMessage s)
      s.rxElementFifo0 s.standardReceiveIndex).2 =
      s.mcan.fifo0.cells s.standardReceiveIndex := by
    simp [mcanGetRxFifo0Element, getRxElement, mcanClearInterruptStatus, h, Mcan.writeIr]
  simp only [fifo0Branch]
  rw [show (mcanClearInterruptStatus mcanRxFifo0NewMessage s).rxElementFifo0 = s.rxElementFifo0
    from rfl, show (mcanClearInterruptStatus mcanRxFifo0NewMessage s).standardReceiveIndex =
    s.standardReceiveIndex from rfl, he]
  rfl

def fifo1Report (e : McanRxElement) : Obs :=
  .copied .fifo1 e "\n\r Extended FD message received in FIFO 1. The received data is: \r\n"
    (printData e confMcanElementDataSize)

theorem fifo1Branch_eq {s : Node} (h : s.hw = .mcan1) :
    fifo1Branch s =
      { s with
        mcan := { s.mcan with
          ir := s.mcan.ir &&& ~~~mcanRxFifo1NewMessage
          fifo0 := s.mcan.fifo0.ack (s.extendedReceiveIndex % 64) }
        rxElementFifo1 := s.mcan.fifo1.cells s.extendedReceiveIndex
        extendedReceiveIndex := nextReceiveIndex confMcan0RxFifo1Num s.extendedReceiveIndex
        trace := s.trace ++ [fifo1Report (s.mcan.fifo1.cells s.extendedReceiveIndex)] } := by
  have he : (mcanGetRxFifo1Element (mcanClearInterruptStatus mcanRxFifo1NewMessage s)
      s.rxElementFifo1 s.extendedReceiveIndex).2 =
      s.mcan.fifo1.cells s.extendedReceiveIndex := by
    simp [mcanGetRxFifo1Element, getRxElement, mcanClearInterruptStatus, h, Mcan.writeIr]
  simp only [fifo1Branch]
  rw [show (mcanClearInterruptStatus mcanRxFifo1NewMessage s).rxElementFifo1 = s.rxElementFifo1
    from rfl, show (mcanClearInterruptStatus mcanRxFifo1NewMessage s).extendedReceiveIndex =
    s.extendedReceiveIndex from rfl, he]
  rfl

/-- Bus-off recovery stops at `can_init`: INIT and CCE stay set, and both FIFOs and the transmit
requests are reset. -/
theorem busOffBranch_mcan (s : Node) :
    ∃ cccr : Word, has cccr mcanCccrInit = true ∧ has cccr mcanCccrCce = true ∧
      (busOffBranch s).mcan = { s.mcan with
        cccr := cccr
        ir := s.mcan.ir &&& ~~~mcanBusOff
        gfc := 0x2B#32
        sidfcLss := confMcan1RxStandardIdFilterNum
        xidfcLse := confMcan1RxExtendedIdFilterNum
        xidam := 0x1FFFFFFF#32
        rxf0c := { size := confMcan1RxFifo0Num, overwrite := true, watermark := 0#8 }
        rxf1c := { size := confMcan1RxFifo1Num, overwrite := true, watermark := 0#8 }
        fifo0 := s.mcan.fifo0.clear
        fifo1 := s.mcan.fifo1.clear
        txbrp := 0#32 } := by
  let s1 := (mcanStop (mcanClearInterruptStatus mcanBusOff s)).emit
    (.message ": MCAN bus off error, re-initialization. \r\n\r\n")
  have hset : has (s.mcan.cccr ||| mcanCccrInit) mcanCccrInit = true := has_or_self (by decide)
  have hs1 : s1.mcan = ((s.mcan.writeIr mcanBusOff).writeCccr (s.mcan.cccr ||| mcanCccrInit)) := rfl
  have hinit : s1.mcan.initBit = true := by
    rw [hs1, Mcan.writeCccr]
    split
    · exact hset
    · rw [Mcan.initBit, has_clear_of_disjoint (by decide)]
      exact hset
  refine ⟨s1.mcan.cccr ||| mcanCccrCce ||| mcanCccrTxp, ?_, ?_, ?_⟩
  · rw [(has_or_txp _).2, has_or_of_disjoint (by decide)]
    exact hinit
  · rw [(has_or_txp _).1]
    exact has_or_self (by decide)
  · show (canInit s1).mcan = _
    rw [canInit_of_init hinit, hs1]
    simp only [Mcan.writeCccr]
    split <;> rfl

@[simp] theorem busOffBranch_hw (s : Node) : (busOffBranch s).hw = .mcan1 := rfl
@[simp] theorem busOffBranch_trace (s : Node) : (busOffBranch s).trace =
    s.trace ++ [.message ": MCAN bus off error, re-initialization. \r\n\r\n"] := rfl

@[simp] theorem foldl_serviceRxBuffer_mcan (ks : List Nat) :
    ∀ s : Node, (ks.foldl serviceRxBuffer s).mcan = s.mcan := by
  induction ks with
  | nil => intro s; rfl
  | cons k ks ih =>
    intro s
    rw [List.foldl_cons, ih]
    rfl

/-! ## The handler as a chain of guarded branches -/

def guarded (b : Bool) (branch : Node → Node) (s : Node) : Node := if b then branch s else s

@[simp] theorem guarded_false (branch : Node → Node) (s : Node) : guarded false branch s = s := rfl
@[simp] theorem guarded_true (branch : Node → Node) (s : Node) :
    guarded true branch s = branch s := rfl

theorem guarded_keeps {Q : Node → Prop} {b : Bool} {branch : Node → Node} {s : Node} (h : Q s)
    (hb : b = true → ∀ t, Q t → Q (branch t)) : Q (guarded b branch s) := by
  cases b with
  | false => exact h
  | true => exact hb rfl s h

/-- The Rx buffer branch leaves both FIFOs and the driver's indices alone. -/
theorem guarded_rxBufferBranch_keeps {s : Node} (hw : s.hw = .mcan1) (b : Bool) :
    (guarded b rxBufferBranch s).hw = .mcan1 ∧
      (guarded b rxBufferBranch s).mcan.fifo0 = s.mcan.fifo0 ∧
      (guarded b rxBufferBranch s).mcan.fifo1 = s.mcan.fifo1 ∧
      (guarded b rxBufferBranch s).standardReceiveIndex = s.standardReceiveIndex ∧
      (guarded b rxBufferBranch s).extendedReceiveIndex = s.extendedReceiveIndex := by
  cases b with
  | false => exact ⟨hw, rfl, rfl, rfl, rfl⟩
  | true =>
    rw [guarded_true, rxBufferBranch_eq hw]
    exact ⟨hw, rfl, rfl, rfl, rfl⟩

/-- The FIFO 0 branch leaves FIFO 1 and its index alone. -/
theorem guarded_fifo0Branch_keeps {s : Node} (hw : s.hw = .mcan1) (b : Bool) :
    (guarded b fifo0Branch s).hw = .mcan1 ∧
      (guarded b fifo0Branch s).mcan.fifo1 = s.mcan.fifo1 ∧
      (guarded b fifo0Branch s).extendedReceiveIndex = s.extendedReceiveIndex := by
  cases b with
  | false => exact ⟨hw, rfl, rfl⟩
  | true =>
    rw [guarded_true, fifo0Branch_eq hw]
    exact ⟨hw, rfl, rfl⟩

theorem mcan1Int0Handler_eq (s : Node) :
    mcan1Int0Handler s =
      guarded (has s.mcan.ir mcanBusOff) busOffBranch
        (guarded (has s.mcan.ir mcanAcknowledgeError || has s.mcan.ir mcanFormatError)
          protocolErrorBranch
          (guarded (has s.mcan.ir mcanRxFifo1NewMessage) fifo1Branch
            (guarded (has s.mcan.ir mcanRxFifo0NewMessage) fifo0Branch
              (guarded (has s.mcan.ir mcanRxBufferNewMessage) rxBufferBranch s)))) := rfl

/-- What every branch keeps, the handler keeps. -/
theorem mcan1Int0Handler_keeps {Q : Node → Prop} {s : Node} (h : Q s)
    (hbuf : ∀ t, Q t → Q (rxBufferBranch t))
    (hfifo0 : ∀ t, Q t → Q (fifo0Branch t))
    (hfifo1 : has s.mcan.ir mcanRxFifo1NewMessage = true → ∀ t, Q t → Q (fifo1Branch t))
    (herr : ∀ t, Q t → Q (protocolErrorBranch t))
    (hoff : has s.mcan.ir mcanBusOff = true → ∀ t, Q t → Q (busOffBranch t)) :
    Q (mcan1Int0Handler s) := by
  rw [mcan1Int0Handler_eq]
  refine guarded_keeps ?_ hoff
  refine guarded_keeps ?_ fun _ => herr
  refine guarded_keeps ?_ hfifo1
  refine guarded_keeps ?_ fun _ => hfifo0
  exact guarded_keeps h fun _ => hbuf

/-! ## The interrupt flags -/

/-- The flags a handler run clears, from the status it has read. -/
def handledFlags (status : Word) : Word :=
  (if has status mcanRxBufferNewMessage then mcanRxBufferNewMessage else 0#32) |||
  (if has status mcanRxFifo0NewMessage then mcanRxFifo0NewMessage else 0#32) |||
  (if has status mcanRxFifo1NewMessage then mcanRxFifo1NewMessage else 0#32) |||
  (if has status mcanAcknowledgeError || has status mcanFormatError then
    mcanAcknowledgeError ||| mcanFormatError else 0#32) |||
  (if has status mcanBusOff then mcanBusOff else 0#32)

theorem guarded_ir {b : Bool} {branch : Node → Node} {flags : Word}
    (h : ∀ t, (branch t).mcan.ir = t.mcan.ir &&& ~~~flags) (s : Node) :
    (guarded b branch s).mcan.ir = s.mcan.ir &&& ~~~(if b then flags else 0#32) := by
  cases b with
  | false => simp only [guarded_false, if_neg Bool.false_ne_true, BitVec.not_zero, BitVec.and_allOnes]
  | true => exact h s

theorem handler_ir (s : Node) :
    (mcan1Int0Handler s).mcan.ir = s.mcan.ir &&& ~~~(handledFlags s.mcan.ir) := by
  have hbuf : ∀ t, (rxBufferBranch t).mcan.ir = t.mcan.ir &&& ~~~mcanRxBufferNewMessage := by
    intro t
    rw [rxBufferBranch, foldl_serviceRxBuffer_mcan]
    rfl
  have hoff : ∀ t, (busOffBranch t).mcan.ir = t.mcan.ir &&& ~~~mcanBusOff := by
    intro t
    obtain ⟨_, _, _, hm⟩ := busOffBranch_mcan t
    rw [hm]
  have hfifo0 : ∀ t, (fifo0Branch t).mcan.ir = t.mcan.ir &&& ~~~mcanRxFifo0NewMessage :=
    fun _ => rfl
  have hfifo1 : ∀ t, (fifo1Branch t).mcan.ir = t.mcan.ir &&& ~~~mcanRxFifo1NewMessage :=
    fun _ => rfl
  have herr : ∀ t, (protocolErrorBranch t).mcan.ir =
      t.mcan.ir &&& ~~~(mcanAcknowledgeError ||| mcanFormatError) := fun _ => rfl
  rw [mcan1Int0Handler_eq, guarded_ir hoff, guarded_ir herr, guarded_ir hfifo1,
    guarded_ir hfifo0, guarded_ir hbuf, handledFlags]
  simp only [BitVec.not_or, BitVec.and_assoc]

/-- The four flags a message or bus-off raises. -/
theorem handledFlags_part {status flag : Word} (h : has status flag = true)
    (hflag : flag = mcanRxBufferNewMessage ∨ flag = mcanRxFifo0NewMessage ∨
      flag = mcanRxFifo1NewMessage ∨ flag = mcanBusOff) : handledFlags status &&& flag = flag := by
  unfold handledFlags
  rcases hflag with rfl | rfl | rfl | rfl <;> simp only [h, if_true] <;> split <;> split <;>
    split <;> split <;> decide

/-- No such flag is pending after a handler run. -/
theorem handler_flag {flag : Word} (s : Node)
    (hflag : flag = mcanRxBufferNewMessage ∨ flag = mcanRxFifo0NewMessage ∨
      flag = mcanRxFifo1NewMessage ∨ flag = mcanBusOff) :
    has (mcan1Int0Handler s).mcan.ir flag = false := by
  rw [handler_ir]
  cases h : has s.mcan.ir flag with
  | true => exact has_clear_of_part (handledFlags_part h hflag)
  | false =>
    by_contra hn
    have := has_of_has_clear (Bool.not_eq_false _ ▸ hn)
    rw [h] at this
    cases this

end CanNet
