import CanNet.Config
import CanNet.Lib.Bits
import CanNet.Lib.Ring

/-!
# CanNet.Mcan

The MCAN1 peripheral: its registers, its message RAM and what the hardware does on its own.

Registers the program never reads or that only set bit timing, interrupt lines, time stamps and
RAM start addresses are left out. Register writes that have a hardware effect are functions
(`writeCccr`, `writeIr`, `writeNdat1`, `writeRxf0a`, `writeTxbar`, ...); the rest of the module
is the hardware's own steps: storing a received frame, transmitting the pending one, bus-off.
-/

namespace CanNet

open Bits

/-! ## Message RAM elements -/

structure McanRxElement where
  r0 : Word
  r1 : Word
  data : Vector Byte confMcanElementDataSize
deriving DecidableEq

structure McanTxElement where
  t0 : Word
  t1 : Word
  data : Vector Byte confMcanElementDataSize
deriving DecidableEq

namespace McanRxElement

def xtd (e : McanRxElement) : Bool := e.r0.getLsbD 30
def dlc (e : McanRxElement) : BitVec 4 := field 16 4 e.r1
def edl (e : McanRxElement) : Bool := e.r1.getLsbD 21

end McanRxElement

/-- A frame as it appears on the wire. `id` is the standard or the extended identifier. -/
structure TxFrame where
  extended : Bool
  id : BitVec 29
  rtr : Bool
  fdf : Bool
  brs : Bool
  dlc : BitVec 4
  data : List Byte
deriving DecidableEq

/-- The data length a DLC announces: at most 8 bytes unless the frame is in FD format. -/
def dlcBytes (fdf : Bool) (dlc : BitVec 4) : Nat :=
  if fdf then [0, 1, 2, 3, 4, 5, 6, 7, 8, 12, 16, 20, 24, 32, 48, 64].getD dlc.toNat 64
  else min dlc.toNat 8

/-- The frame the controller sends for a Tx buffer element. -/
def McanTxElement.frame (e : McanTxElement) : TxFrame where
  extended := e.t0.getLsbD 30
  id := if e.t0.getLsbD 30 then field 0 29 e.t0 else (field 18 11 e.t0).setWidth 29
  rtr := e.t0.getLsbD 29
  fdf := e.t1.getLsbD 21
  brs := e.t1.getLsbD 20
  dlc := field 16 4 e.t1
  data := e.data.toList.take (dlcBytes (e.t1.getLsbD 21) (field 16 4 e.t1))

/-! ## Registers -/

def mcanCccrInit : Word := 1#32 <<< 0
def mcanCccrCce : Word := 1#32 <<< 1
def mcanCccrCsr : Word := 1#32 <<< 4
def mcanCccrDar : Word := 1#32 <<< 6
def mcanCccrTxp : Word := 1#32 <<< 14

/-! The interrupt sources of `enum mcan_interrupt_source` the program uses; the same masks serve
for `MCAN_IR` and `MCAN_IE`. -/

def mcanRxFifo0NewMessage : Word := 1#32 <<< 0
def mcanRxFifo1NewMessage : Word := 1#32 <<< 4
def mcanRxBufferNewMessage : Word := 1#32 <<< 19
def mcanBusOff : Word := 1#32 <<< 25
def mcanAcknowledgeError : Word := 1#32 <<< 29
def mcanFormatError : Word := 1#32 <<< 30

/-- `MCAN_RXF0C` / `MCAN_RXF1C` without the start address. -/
structure RxFifoConfig where
  size : Nat
  overwrite : Bool
  watermark : Byte
deriving DecidableEq

/-- The new-data flags `MCAN_NDAT1` and `MCAN_NDAT2`. -/
structure NewData where
  ndat1 : Word
  ndat2 : Word
deriving DecidableEq

structure Mcan where
  cccr : Word
  ir : Word
  ie : Word
  gfc : Word
  sidfcLss : Nat
  xidfcLse : Nat
  xidam : Word
  rxf0c : RxFifoConfig
  rxf1c : RxFifoConfig
  newData : NewData
  rxBuffer : Nat → McanRxElement
  fifo0 : Ring McanRxElement confMcan1RxFifo0Num
  fifo1 : Ring McanRxElement confMcan1RxFifo1Num
  txbrp : Word
  txBuffer : Nat → McanTxElement
  standardFilter : Nat → Word
  extendedFilter : Nat → Word × Word

/-! ## Register writes -/

namespace NewData

/-- `MCAN_NDAT1` and `MCAN_NDAT2` are cleared by writing ones. -/
def writeNdat1 (v : Word) (nd : NewData) : NewData := { nd with ndat1 := nd.ndat1 &&& ~~~v }
def writeNdat2 (v : Word) (nd : NewData) : NewData := { nd with ndat2 := nd.ndat2 &&& ~~~v }

end NewData

namespace Mcan

def initBit (m : Mcan) : Bool := has m.cccr mcanCccrInit
def cceBit (m : Mcan) : Bool := has m.cccr mcanCccrCce

/-- `MCAN_CCCR`. CCE can only be set while INIT is set, and clearing INIT clears it. Setting CCE
resets the receive FIFOs and the transmit requests. -/
def writeCccr (v : Word) (m : Mcan) : Mcan :=
  if has v mcanCccrCce && has v mcanCccrInit && m.initBit then
    { m with cccr := v, fifo0 := m.fifo0.clear, fifo1 := m.fifo1.clear, txbrp := 0#32 }
  else { m with cccr := v &&& ~~~mcanCccrCce }

/-- A write to protected configuration registers has no effect unless INIT and CCE are set. -/
def configure (f : Mcan → Mcan) (m : Mcan) : Mcan :=
  if m.initBit && m.cceBit then f m else m

/-- `MCAN_IR` is cleared by writing ones. -/
def writeIr (v : Word) (m : Mcan) : Mcan := { m with ir := m.ir &&& ~~~v }

/-- `MCAN_RXF0A`, `MCAN_RXF1A`: the acknowledge index field is six bits wide. -/
def writeRxf0a (index : Nat) (m : Mcan) : Mcan := { m with fifo0 := m.fifo0.ack (index % 64) }
def writeRxf1a (index : Nat) (m : Mcan) : Mcan := { m with fifo1 := m.fifo1.ack (index % 64) }

/-- `MCAN_TXBAR` adds transmit requests. -/
def writeTxbar (v : Word) (m : Mcan) : Mcan := { m with txbrp := m.txbrp ||| v }

/-! ## The hardware's own steps -/

/-- A received frame is stored into dedicated Rx buffer `k`. -/
def storeRxBuffer (k : Nat) (e : McanRxElement) (m : Mcan) : Mcan :=
  { m with
    rxBuffer := Function.update m.rxBuffer k e
    newData :=
      if k < 32 then { m.newData with ndat1 := m.newData.ndat1 ||| (1#32 <<< k) }
      else { m.newData with ndat2 := m.newData.ndat2 ||| (1#32 <<< (k - 32)) }
    ir := m.ir ||| mcanRxBufferNewMessage }

def storeFifo0 (e : McanRxElement) (m : Mcan) : Mcan :=
  { m with fifo0 := m.fifo0.arrive m.rxf0c.overwrite e, ir := m.ir ||| mcanRxFifo0NewMessage }

def storeFifo1 (e : McanRxElement) (m : Mcan) : Mcan :=
  { m with fifo1 := m.fifo1.arrive m.rxf1c.overwrite e, ir := m.ir ||| mcanRxFifo1NewMessage }

/-- The error counter overflows: the controller leaves the bus. -/
def goBusOff (m : Mcan) : Mcan :=
  { m with cccr := m.cccr ||| mcanCccrInit, ir := m.ir ||| mcanBusOff }

/-- Any other event that sets interrupt flags. -/
def raise (flags : Word) (m : Mcan) : Mcan := { m with ir := m.ir ||| flags }

/-- The transmit request of Tx buffer 0. -/
def txPending (m : Mcan) : Bool := m.txbrp.getLsbD 0

/-- Tx buffer 0 goes out on the bus as it is at this moment, and its request bit is cleared. -/
def transmit (m : Mcan) : Option (TxFrame × Mcan) :=
  if m.txPending then some ((m.txBuffer 0).frame, { m with txbrp := m.txbrp &&& ~~~1#32 }) else none

/-! ## What each operation leaves alone -/

@[simp] theorem writeCccr_ir (v : Word) (m : Mcan) : (m.writeCccr v).ir = m.ir := by
  unfold writeCccr; split <;> rfl
@[simp] theorem writeCccr_ie (v : Word) (m : Mcan) : (m.writeCccr v).ie = m.ie := by
  unfold writeCccr; split <;> rfl
@[simp] theorem writeCccr_newData (v : Word) (m : Mcan) : (m.writeCccr v).newData = m.newData := by
  unfold writeCccr; split <;> rfl
@[simp] theorem writeCccr_rxBuffer (v : Word) (m : Mcan) :
    (m.writeCccr v).rxBuffer = m.rxBuffer := by
  unfold writeCccr; split <;> rfl
@[simp] theorem writeCccr_txBuffer (v : Word) (m : Mcan) :
    (m.writeCccr v).txBuffer = m.txBuffer := by
  unfold writeCccr; split <;> rfl

end Mcan
end CanNet
