import Mathlib.Tactic.Common

/-!
# CanNet.Config

Words, status codes and the configuration constants (`conf_mcan.h`, `conf_subsystem_*.h`,
`can_controller.h`) the other modules share.
-/

namespace CanNet

abbrev Word := BitVec 32
abbrev Byte := BitVec 8

/-- `enum status_code`. A C variable of this type can also hold a number that names no code. -/
inductive StatusCode where
  | statusOk
  | statusErrBusy
  | statusErrDenied
  | statusErrTimeout
  | errIoError
  | errFlushed
  | errTimeout
  | errBadData
  | errProtocol
  | errUnsupportedDev
  | errNoMemory
  | errInvalidArg
  | errBadAddress
  | errBusy
  | errBadFormat
  | errNoTimer
  | errTimerAlreadyRunning
  | errTimerNotRunning
  | errAborted
  | operationInProgress
  | other (v : Int)
deriving DecidableEq

namespace StatusCode

/-- The implicit conversion of an `int32_t` to `status_code_t`. -/
def ofInt (v : Int) : StatusCode :=
  if v = 0 then statusOk
  else if v = 0x19 then statusErrBusy
  else if v = 0x1C then statusErrDenied
  else if v = 0x12 then statusErrTimeout
  else if v = -1 then errIoError
  else if v = -2 then errFlushed
  else if v = -3 then errTimeout
  else if v = -4 then errBadData
  else if v = -5 then errProtocol
  else if v = -6 then errUnsupportedDev
  else if v = -7 then errNoMemory
  else if v = -8 then errInvalidArg
  else if v = -9 then errBadAddress
  else if v = -10 then errBusy
  else if v = -11 then errBadFormat
  else if v = -12 then errNoTimer
  else if v = -13 then errTimerAlreadyRunning
  else if v = -14 then errTimerNotRunning
  else if v = -15 then errAborted
  else if v = -128 then operationInProgress
  else other v

/-- The implicit conversion of a `bool` to `status_code_t`. -/
def ofBool (b : Bool) : StatusCode := ofInt (if b then 1 else 0)

@[simp] theorem ofInt_zero : ofInt 0 = statusOk := rfl
@[simp] theorem ofBool_false : ofBool false = statusOk := rfl

end StatusCode

/-! ## `conf_mcan.h` -/

abbrev confMcan0RxFifo0Num : Nat := 4
abbrev confMcan0RxFifo1Num : Nat := 4
abbrev confMcan0RxBufferNum : Nat := 4
abbrev confMcan1RxFifo0Num : Nat := 4
abbrev confMcan1RxFifo1Num : Nat := 4
abbrev confMcan1RxBufferNum : Nat := 4
abbrev confMcan1RxStandardIdFilterNum : Nat := 4
abbrev confMcan1RxExtendedIdFilterNum : Nat := 2
abbrev confMcanElementDataSize : Nat := 8

/-! ## `can_controller.h`, `conf_subsystem_1.h`, `conf_subsystem_2.h` -/

def mcanRxStandardFilterIndex0 : Nat := 0
def mcanRxStandardFilterId0BufferIndex : Nat := 2
def mcanTxBufferIndex : Nat := 0

def ss1CanId : Word := 0x45A#32
def selfCanId : Word := 0x47A#32
def ss1CmdIdTurnOnLed : Byte := 0x0#8
def ss1CmdIdTurnOffLed : Byte := 0x1#8
def ss1CmdIdGetLedStatus : Byte := 0x2#8
def ss1CmdIdGetTemp : Byte := 0x3#8

def ss2CanId : Word := 0x46A#32
def ss2CmdIdTurnOnLed : Byte := 0x0#8
def ss2CmdIdTurnOffLed : Byte := 0x1#8
def ss2CmdIdGetLedStatus : Byte := 0x2#8
def ss2CmdIdGetTemp : Byte := 0x3#8

end CanNet
