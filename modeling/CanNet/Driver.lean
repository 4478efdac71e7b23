import CanNet.Mcan

/-!
# CanNet.Driver

The MCAN driver, `mcan.c` and the inline functions of `mcan.h`.

`Node` is the master's state below the commands: the module instance, the peripheral it drives,
the static variables of `can_controller.c`, and a trace of what can be observed from outside.
`MCAN_MODULE` is MCAN1 and nothing binds MCAN0, so the `MCAN0` branches, the same statements over
the `mcan0_*` arrays, are left out; `hw` is `null` until `mcan_init` has run. Functions that read
or write a register act on MCAN1.
-/

namespace CanNet

open Bits

/-- `module_inst->hw`. -/
inductive McanHw where
  | null
  | mcan1
deriving DecidableEq

inductive RxDest where
  | buffer (k : Nat)
  | fifo0
  | fifo1
deriving DecidableEq

/-- What an observer of the message RAM, the console, the callers of `can_tx_message` and the bus
sees. A printed byte is `none` where the code reads past the end of the element's data array. -/
inductive Obs where
  | stored (dest : RxDest) (e : McanRxElement)
  | copied (dest : RxDest) (e : McanRxElement) (header : String) (printed : List (Option Byte))
  | message (text : String)
  | txRequest (mask : Word)
  | accepted (f : TxFrame)
  | sent (f : TxFrame)
deriving DecidableEq

structure Node where
  hw : McanHw
  mcan : Mcan
  standardReceiveIndex : Nat
  extendedReceiveIndex : Nat
  rxElementFifo0 : McanRxElement
  rxElementFifo1 : McanRxElement
  rxElementBuffer : McanRxElement
  trace : List Obs

namespace Node

def onMcan (f : Mcan → Mcan) (s : Node) : Node := { s with mcan := f s.mcan }

def emit (o : Obs) (s : Node) : Node := { s with trace := s.trace ++ [o] }

@[simp] theorem onMcan_mcan (f : Mcan → Mcan) (s : Node) : (s.onMcan f).mcan = f s.mcan := rfl
@[simp] theorem onMcan_hw (f : Mcan → Mcan) (s : Node) : (s.onMcan f).hw = s.hw := rfl
@[simp] theorem onMcan_trace (f : Mcan → Mcan) (s : Node) : (s.onMcan f).trace = s.trace := rfl
@[simp] theorem onMcan_standardReceiveIndex (f : Mcan → Mcan) (s : Node) :
    (s.onMcan f).standardReceiveIndex = s.standardReceiveIndex := rfl
@[simp] theorem onMcan_extendedReceiveIndex (f : Mcan → Mcan) (s : Node) :
    (s.onMcan f).extendedReceiveIndex = s.extendedReceiveIndex := rfl
@[simp] theorem emit_mcan (o : Obs) (s : Node) : (s.emit o).mcan = s.mcan := rfl
@[simp] theorem emit_hw (o : Obs) (s : Node) : (s.emit o).hw = s.hw := rfl
@[simp] theorem emit_trace (o : Obs) (s : Node) : (s.emit o).trace = s.trace ++ [o] := rfl
@[simp] theorem emit_standardReceiveIndex (o : Obs) (s : Node) :
    (s.emit o).standardReceiveIndex = s.standardReceiveIndex := rfl
@[simp] theorem emit_extendedReceiveIndex (o : Obs) (s : Node) :
    (s.emit o).extendedReceiveIndex = s.extendedReceiveIndex := rfl

end Node

/-! ## Module setting -/

inductive McanNonmatchingFramesAction where
  | fifo0
  | fifo1
  | reject
deriving DecidableEq

def McanNonmatchingFramesAction.toWord : McanNonmatchingFramesAction → Word
  | .fifo0 => 0#32
  | .fifo1 => 1#32
  | .reject => 2#32

/-- `struct mcan_config`, the fields that reach a modelled register. -/
structure McanConfig where
  transmitPause : Bool
  automaticRetransmission : Bool
  clockStopRequest : Bool
  nonmatchingFramesActionStandard : McanNonmatchingFramesAction
  nonmatchingFramesActionExtended : McanNonmatchingFramesAction
  remoteFramesStandardReject : Bool
  remoteFramesExtendedReject : Bool
  extendedIdMask : Word
  rxFifo0Overwrite : Bool
  rxFifo0Watermark : Byte
  rxFifo1Overwrite : Bool
  rxFifo1Watermark : Byte

def mcanGetConfigDefaults : McanConfig where
  transmitPause := true
  automaticRetransmission := true
  clockStopRequest := false
  nonmatchingFramesActionStandard := .reject
  nonmatchingFramesActionExtended := .reject
  remoteFramesStandardReject := true
  remoteFramesExtendedReject := true
  extendedIdMask := 0x1FFFFFFF#32
  rxFifo0Overwrite := true
  rxFifo0Watermark := 0#8
  rxFifo1Overwrite := true
  rxFifo1Watermark := 0#8

/-- `_mcan_message_memory_init`, MCAN1 branch. -/
def mcanMessageMemoryInit : Mcan → Mcan :=
  Mcan.configure fun m =>
    { m with
      sidfcLss := confMcan1RxStandardIdFilterNum
      xidfcLse := confMcan1RxExtendedIdFilterNum
      rxf0c := { size := confMcan1RxFifo0Num, overwrite := false, watermark := 0#8 }
      rxf1c := { size := confMcan1RxFifo1Num, overwrite := false, watermark := 0#8 } }

/-- `hw->MCAN_CCCR |= bits` under a condition. -/
def orCccrIf (b : Bool) (bits : Word) (m : Mcan) : Mcan :=
  if b then m.writeCccr (m.cccr ||| bits) else m

/-- `_mcan_set_configuration`. -/
def mcanSetConfiguration (config : McanConfig) (m : Mcan) : Mcan :=
  let m := orCccrIf config.transmitPause mcanCccrTxp m
  let m := orCccrIf (!config.automaticRetransmission) mcanCccrDar m
  let m := orCccrIf config.clockStopRequest mcanCccrCsr m
  let gfc := (config.nonmatchingFramesActionStandard.toWord <<< 4 &&& 0x30#32) |||
    (config.nonmatchingFramesActionExtended.toWord <<< 2 &&& 0xC#32) |||
    (if config.remoteFramesStandardReject then 2#32 else 0#32) |||
    (if config.remoteFramesExtendedReject then 1#32 else 0#32)
  m.configure fun m =>
    { m with
      gfc := gfc
      xidam := config.extendedIdMask
      rxf0c := { m.rxf0c with
        overwrite := m.rxf0c.overwrite || config.rxFifo0Overwrite
        watermark := m.rxf0c.watermark ||| (config.rxFifo0Watermark &&& 0x7F#8) }
      rxf1c := { m.rxf1c with
        overwrite := m.rxf1c.overwrite || config.rxFifo1Overwrite
        watermark := m.rxf1c.watermark ||| (config.rxFifo1Watermark &&& 0x7F#8) } }

def mcanInit (hw : McanHw) (config : McanConfig) (s : Node) : Node :=
  ({ s with hw := hw } : Node).onMcan fun m =>
    let m := m.writeCccr (m.cccr ||| mcanCccrCce)
    let m := mcanMessageMemoryInit m
    mcanSetConfiguration config m

/-- The write is immediate here, so the loop that waits for INIT to read 0 ends at once. -/
def mcanStart (s : Node) : Node := s.onMcan fun m => m.writeCccr (m.cccr &&& ~~~mcanCccrInit)

def mcanStop (s : Node) : Node := s.onMcan fun m => m.writeCccr (m.cccr ||| mcanCccrInit)

/-! ## Rx handling -/

/-- `mcan_rx_get_buffer_status`. -/
def mcanRxGetBufferStatus (nd : NewData) (index : Nat) : Bool :=
  if index < 32 then has nd.ndat1 (1#32 <<< index) else has nd.ndat2 (1#32 <<< (index - 32))

/-- `mcan_rx_clear_buffer_status`. -/
def mcanRxClearBufferStatus (nd : NewData) (index : Nat) : NewData :=
  if index < 32 then nd.writeNdat1 (1#32 <<< index) else nd.writeNdat2 (1#32 <<< (index - 32))

def mcanRxFifoAcknowledge (fifoNumber : Bool) (index : Nat) (s : Node) : Node :=
  if !fifoNumber then s.onMcan (Mcan.writeRxf0a index) else s.onMcan (Mcan.writeRxf1a index)

def mcanGetStandardMessageFilterElementDefault : Word :=
  0x7FF#32 ||| (1#32 <<< 27) ||| (2#32 <<< 30)

def mcanGetExtendedMessageFilterElementDefault : Word × Word :=
  (2#32 <<< 29, 0x1FFFFFFF#32 ||| (2#32 <<< 30))

def mcanSetRxStandardFilter (sdFilter : Word) (index : Nat) (s : Node) : StatusCode × Node :=
  match s.hw with
  | .mcan1 => (.statusOk, s.onMcan fun m =>
      { m with standardFilter := Function.update m.standardFilter index sdFilter })
  | .null => (.errInvalidArg, s)

def mcanSetRxExtendedFilter (etFilter : Word × Word) (index : Nat) (s : Node) :
    StatusCode × Node :=
  match s.hw with
  | .mcan1 => (.statusOk, s.onMcan fun m =>
      { m with extendedFilter := Function.update m.extendedFilter index etFilter })
  | .null => (.errInvalidArg, s)

/-- `mcan_get_rx_buffer_element` and its two FIFO siblings copy one message RAM element over
`rxElement`, or leave it and report an error. -/
def getRxElement (ram : Nat → McanRxElement) (hw : McanHw) (rxElement : McanRxElement)
    (index : Nat) : StatusCode × McanRxElement :=
  match hw with
  | .mcan1 => (.statusOk, ram index)
  | .null => (.errInvalidArg, rxElement)

def mcanGetRxBufferElement (s : Node) (rxElement : McanRxElement) (index : Nat) :
    StatusCode × McanRxElement := getRxElement s.mcan.rxBuffer s.hw rxElement index

def mcanGetRxFifo0Element (s : Node) (rxElement : McanRxElement) (index : Nat) :
    StatusCode × McanRxElement := getRxElement s.mcan.fifo0.cells s.hw rxElement index

def mcanGetRxFifo1Element (s : Node) (rxElement : McanRxElement) (index : Nat) :
    StatusCode × McanRxElement := getRxElement s.mcan.fifo1.cells s.hw rxElement index

/-! ## Tx handling -/

/-- Only the two header words are set; the data bytes stay what they were. -/
def mcanGetTxBufferElementDefaults (txElement : McanTxElement) : McanTxElement :=
  { txElement with t0 := 0#32, t1 := (1#32 <<< 23) ||| (8#32 <<< 16) }

/-- The copy takes both header words and every byte of the data array. -/
def mcanSetTxBufferElement (txElement : McanTxElement) (index : Nat) (s : Node) :
    StatusCode × Node :=
  match s.hw with
  | .mcan1 => (.statusOk, s.onMcan fun m =>
      { m with txBuffer := Function.update m.txBuffer index txElement })
  | .null => (.errInvalidArg, s)

def mcanTxTransferRequest (trigMask : Word) (s : Node) : StatusCode × Node :=
  if s.mcan.cceBit then (.errBusy, s)
  else (.statusOk, (s.onMcan (Mcan.writeTxbar trigMask)).emit (.txRequest trigMask))

/-! ## Interrupts -/

def mcanEnableInterrupt (source : Word) (s : Node) : Node :=
  s.onMcan fun m => { m with ie := m.ie ||| source }

def mcanDisableInterrupt (source : Word) (s : Node) : Node :=
  s.onMcan fun m => { m with ie := m.ie &&& ~~~source }

def mcanReadInterruptStatus (s : Node) : Word := s.mcan.ir

def mcanClearInterruptStatus (source : Word) (s : Node) : Node := s.onMcan (Mcan.writeIr source)

end CanNet
