import CanNet.Handler
import CanNet.Lib.Machine

/-!
# CanNet.Node

The master and its peripheral as one machine.

An event is a call of `can_tx_message`, a run of the interrupt handler, or a step the hardware
takes on its own. The trace records what was stored, copied, accepted and sent; `storedIn`,
`copiedFrom`, `acceptedFrames` and `sentFrames` read it.
-/

namespace CanNet

open Bits

/-! ## Reading the trace -/

def storedIn (dest : RxDest) (trace : List Obs) : List McanRxElement :=
  trace.filterMap fun o =>
    match o with
    | .stored d e => if d = dest then some e else none
    | _ => none

def copiedFrom (dest : RxDest) (trace : List Obs) : List McanRxElement :=
  trace.filterMap fun o =>
    match o with
    | .copied d e _ _ => if d = dest then some e else none
    | _ => none

def acceptedFrames (trace : List Obs) : List TxFrame :=
  trace.filterMap fun o =>
    match o with
    | .accepted f => some f
    | _ => none

def sentFrames (trace : List Obs) : List TxFrame :=
  trace.filterMap fun o =>
    match o with
    | .sent f => some f
    | _ => none

section Trace

variable (t u : List Obs) (dest : RxDest)

@[simp] theorem storedIn_append : storedIn dest (t ++ u) = storedIn dest t ++ storedIn dest u :=
  List.filterMap_append
@[simp] theorem copiedFrom_append :
    copiedFrom dest (t ++ u) = copiedFrom dest t ++ copiedFrom dest u := List.filterMap_append
@[simp] theorem acceptedFrames_append :
    acceptedFrames (t ++ u) = acceptedFrames t ++ acceptedFrames u := List.filterMap_append
@[simp] theorem sentFrames_append : sentFrames (t ++ u) = sentFrames t ++ sentFrames u :=
  List.filterMap_append

end Trace

/-! ## Events -/

inductive NodeEvent where
  | txMessage (idValue : Word) (length : Byte) (data : List Byte) (txElement : McanTxElement)
  | busStep
  | rxBuffer (k : Fin confMcan1RxBufferNum) (e : McanRxElement)
  | rxFifo0 (e : McanRxElement)
  | rxFifo1 (e : McanRxElement)
  | busOff
  | raise (flags : Word)
  | handler

/-- The interrupt flags that neither a stored message nor bus-off sets. -/
def otherFlags : Word :=
  ~~~(mcanRxFifo0NewMessage ||| mcanRxFifo1NewMessage ||| mcanRxBufferNewMessage ||| mcanBusOff)

theorem has_or_otherFlags {r flag flags : Word} (h : otherFlags &&& flag = 0#32) :
    has (r ||| flags &&& otherFlags) flag = has r flag := by
  apply has_or_of_disjoint
  rw [BitVec.and_assoc, h]
  simp

def nodeStep (s : Node) : NodeEvent → Option Node
  | .txMessage idValue length data txElement =>
    match canTxMessage idValue length data txElement s with
    | none => none
    | some (ret, s) =>
      if ret = .statusOk then some (s.emit (.accepted (callFrame idValue length data))) else some s
  | .busStep =>
    match s.mcan.transmit with
    | none => none
    | some (f, m) => some (({ s with mcan := m } : Node).emit (.sent f))
  | .rxBuffer k e => some ((s.onMcan (Mcan.storeRxBuffer k e)).emit (.stored (.buffer k) e))
  | .rxFifo0 e => some ((s.onMcan (Mcan.storeFifo0 e)).emit (.stored .fifo0 e))
  | .rxFifo1 e => some ((s.onMcan (Mcan.storeFifo1 e)).emit (.stored .fifo1 e))
  | .busOff => some (s.onMcan Mcan.goBusOff)
  | .raise flags => some (s.onMcan (Mcan.raise (flags &&& otherFlags)))
  | .handler => some (mcan1Int0Handler s)

def nodeMachine : Machine Node NodeEvent where
  step := nodeStep

/-- Everything a call of `can_tx_message` can do to the node. -/
theorem txMessage_step {s s' : Node} {idValue : Word} {length : Byte} {data : List Byte}
    {txElement : McanTxElement}
    (h : nodeMachine.step s (.txMessage idValue length data txElement) = some s') :
    ∃ e : McanTxElement, e.frame = callFrame idValue length data ∧
      ((s.hw = .null ∧ s' = s) ∨
       (s.hw = .mcan1 ∧ s.mcan.cceBit = true ∧ s' = s.onMcan fun m =>
          { m with txBuffer := Function.update m.txBuffer 0 e }) ∨
       (s.hw = .mcan1 ∧ s.mcan.cceBit = false ∧ s' = ((s.onMcan fun m =>
          { m with txBuffer := Function.update m.txBuffer 0 e
                   txbrp := m.txbrp ||| 1#32 }).emit (.txRequest 1#32)).emit
            (.accepted (callFrame idValue length data)))) := by
  simp only [nodeMachine, nodeStep] at h
  split at h
  · cases h
  · rename_i ret t htx
    obtain ⟨e, he, hcase⟩ := canTxMessage_some htx
    refine ⟨e, he, ?_⟩
    rcases hcase with ⟨hw, hr⟩ | ⟨hw, hc, hr⟩ | ⟨hw, hc, hr⟩
    · cases hr
      rw [if_neg (by decide)] at h
      cases h
      exact .inl ⟨hw, rfl⟩
    · cases hr
      rw [if_neg (by decide)] at h
      cases h
      exact .inr (.inl ⟨hw, hc, rfl⟩)
    · cases hr
      rw [if_pos rfl] at h
      cases h
      exact .inr (.inr ⟨hw, hc, rfl⟩)

theorem busStep_step {s s' : Node} (h : nodeMachine.step s .busStep = some s') :
    s.mcan.txPending = true ∧
      s' = (s.onMcan fun m => { m with txbrp := m.txbrp &&& ~~~1#32 }).emit
        (.sent (s.mcan.txBuffer 0).frame) := by
  simp only [nodeMachine, nodeStep, Mcan.transmit] at h
  cases hp : s.mcan.txPending with
  | false => simp [hp] at h
  | true =>
    simp only [hp, if_true] at h
    cases h
    exact ⟨rfl, rfl⟩

/-- The interrupt flags an event raises. -/
def raisedBy : NodeEvent → Word
  | .rxBuffer _ _ => mcanRxBufferNewMessage
  | .rxFifo0 _ => mcanRxFifo0NewMessage
  | .rxFifo1 _ => mcanRxFifo1NewMessage
  | .busOff => mcanBusOff
  | .raise flags => flags &&& otherFlags
  | _ => 0#32

theorem ir_step {s s' : Node} {e : NodeEvent} (he : e ≠ .handler)
    (hs : nodeMachine.step s e = some s') : s'.mcan.ir = s.mcan.ir ||| raisedBy e := by
  cases e with
  | txMessage idValue length data txElement =>
    obtain ⟨e, _, hcase⟩ := txMessage_step hs
    rcases hcase with ⟨_, rfl⟩ | ⟨_, _, rfl⟩ | ⟨_, _, rfl⟩ <;> simp [raisedBy]
  | busStep =>
    obtain ⟨_, rfl⟩ := busStep_step hs
    simp [raisedBy]
  | handler => exact absurd rfl he
  | _ => cases hs; rfl

/-- Outside the handler a flag changes only with an event that raises it. -/
theorem flag_step {s s' : Node} {e : NodeEvent} {flag : Word} (he : e ≠ .handler)
    (hr : has (raisedBy e) flag = false) (hs : nodeMachine.step s e = some s') :
    has s'.mcan.ir flag = has s.mcan.ir flag := by
  rw [ir_step he hs, has_or, hr, Bool.or_false]

/-- A flag that is clear stays clear over an event that does not raise it. -/
theorem flag_clear_step {s s' : Node} {e : NodeEvent} {flag : Word}
    (h : has s.mcan.ir flag = false) (hr : has (raisedBy e) flag = false)
    (hs : nodeMachine.step s e = some s') : has s'.mcan.ir flag = false := by
  by_cases he : e = .handler
  · subst he
    cases hs
    cases hf : has (mcan1Int0Handler s).mcan.ir flag with
    | false => rfl
    | true =>
      rw [handler_ir] at hf
      rw [has_of_has_clear hf] at h
      cases h
  · rw [flag_step he hr hs, h]

theorem has_raise_otherFlags {flag : Word} (h : otherFlags &&& flag = 0#32) (flags : Word) :
    has (flags &&& otherFlags) flag = false := by
  rw [has_eq_false, BitVec.and_assoc, h]
  simp

theorem raisedBy_busOff {e : NodeEvent} (h : e ≠ .busOff) : has (raisedBy e) mcanBusOff = false := by
  cases e with
  | busOff => exact absurd rfl h
  | raise flags => exact has_raise_otherFlags (by decide) flags
  | _ => simp only [raisedBy]; decide

theorem raisedBy_rxFifo1 {e : NodeEvent} (h : ∀ x, e ≠ .rxFifo1 x) :
    has (raisedBy e) mcanRxFifo1NewMessage = false := by
  cases e with
  | rxFifo1 x => exact absurd rfl (h x)
  | raise flags => exact has_raise_otherFlags (by decide) flags
  | _ => simp only [raisedBy]; decide

/-! ## Power-on -/

/-- Registers at their reset values and static variables at zero. The message RAM and the local
copies of received elements hold anything. -/
structure PowerOn (s : Node) : Prop where
  initBit : s.mcan.initBit = true
  ir : s.mcan.ir = 0#32
  newData : s.mcan.newData = { ndat1 := 0#32, ndat2 := 0#32 }
  standardReceiveIndex : s.standardReceiveIndex = 0
  extendedReceiveIndex : s.extendedReceiveIndex = 0
  trace : s.trace = []

/-- `can_init` followed by `can_start`. -/
def boot (s : Node) : Node := canStart (canInit s)

/-- The node right after start-up. -/
theorem boot_mcan {s : Node} (h : PowerOn s) :
    ∃ cccr ie : Word, has cccr mcanCccrInit = false ∧ has cccr mcanCccrCce = false ∧
      (boot s).mcan = { s.mcan with
        cccr := cccr
        ir := 0#32
        ie := ie
        gfc := 0x2B#32
        sidfcLss := confMcan1RxStandardIdFilterNum
        xidfcLse := confMcan1RxExtendedIdFilterNum
        xidam := 0x1FFFFFFF#32
        rxf0c := { size := confMcan1RxFifo0Num, overwrite := true, watermark := 0#8 }
        rxf1c := { size := confMcan1RxFifo1Num, overwrite := true, watermark := 0#8 }
        newData := { ndat1 := 0#32, ndat2 := 0#32 }
        fifo0 := s.mcan.fifo0.clear
        fifo1 := s.mcan.fifo1.clear
        txbrp := 0#32 } := by
  have h0 : (boot s).mcan.initBit = false := canStart_initBit _
  have h1 : (boot s).mcan.cceBit = false := canStart_cceBit _
  refine ⟨(boot s).mcan.cccr, (boot s).mcan.ie, h0, h1, ?_⟩
  rw [boot, canStart_mcan, canInit_of_init h.initBit]
  simp only [h.ir, h.newData]

def blankRxElement : McanRxElement := { r0 := 0#32, r1 := 0#32, data := .replicate _ 0#8 }
def blankTxElement : McanTxElement := { t0 := 0#32, t1 := 0#32, data := .replicate _ 0#8 }

/-- A power-on state: all memory zero. -/
def reset : Node where
  hw := .null
  mcan :=
    { cccr := mcanCccrInit, ir := 0#32, ie := 0#32, gfc := 0#32, sidfcLss := 0, xidfcLse := 0
      xidam := 0x1FFFFFFF#32
      rxf0c := { size := 0, overwrite := false, watermark := 0#8 }
      rxf1c := { size := 0, overwrite := false, watermark := 0#8 }
      newData := { ndat1 := 0#32, ndat2 := 0#32 }
      rxBuffer := fun _ => blankRxElement
      fifo0 := { cells := fun _ => blankRxElement
                 put := 0, get := 0, fill := 0
                 put_lt := by decide, get_lt := by decide, fill_le := by decide }
      fifo1 := { cells := fun _ => blankRxElement
                 put := 0, get := 0, fill := 0
                 put_lt := by decide, get_lt := by decide, fill_le := by decide }
      txbrp := 0#32
      txBuffer := fun _ => blankTxElement
      standardFilter := fun _ => 0#32
      extendedFilter := fun _ => (0#32, 0#32) }
  standardReceiveIndex := 0
  extendedReceiveIndex := 0
  rxElementFifo0 := blankRxElement
  rxElementFifo1 := blankRxElement
  rxElementBuffer := blankRxElement
  trace := []

theorem powerOn_reset : PowerOn reset where
  initBit := by decide
  ir := rfl
  newData := rfl
  standardReceiveIndex := rfl
  extendedReceiveIndex := rfl
  trace := rfl

end CanNet
