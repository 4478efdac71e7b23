import CanNet.Driver
import CanNet.Lib.Registers
import CanNet.Lib.Machine

/-!
# CanNet.Modes

The operating modes of the driver: the functions of `mcan.c` that switch a mode in `MCAN_CCCR`.

`ModeRegisters` has the two registers these functions write, with their write protection; the loops
that wait for a bit end at once or never, and a call that never returns is `none`. `Modes` is what
the calls are for: one switch for each mode. `modes_follow` says that the registers follow the
switches along every run of calls, and that no call ever ends FD mode.
-/

namespace CanNet

open Bits

/-! ## The registers -/

def mcanCccrAsm : Word := 1#32 <<< 2
def mcanCccrCsa : Word := 1#32 <<< 3
def mcanCccrMon : Word := 1#32 <<< 5
def mcanCccrTest : Word := 1#32 <<< 7
def mcanCccrFdoe : Word := 1#32 <<< 8
def mcanCccrBrse : Word := 1#32 <<< 9
def mcanTestLbck : Word := 1#32 <<< 4

/-- CCE and CSA are not here: what they become is part of `writeCccr`. -/
def cccrProtection : Protection 32 where
  free := mcanCccrInit ||| mcanCccrCsr
  locked := mcanCccrDar ||| mcanCccrFdoe ||| mcanCccrBrse ||| mcanCccrTxp
  clearable := mcanCccrAsm ||| mcanCccrMon ||| mcanCccrTest
  free_locked := by decide
  free_clearable := by decide
  locked_clearable := by decide

structure ModeRegisters where
  cccr : Word
  test : Word
deriving DecidableEq

namespace ModeRegisters

/-- CCE is set only where INIT is, and cleared with it. A clock stop request sets INIT and is
acknowledged by CSA; the write that takes the request back leaves INIT set. With TEST clear,
`MCAN_TEST` holds its reset value. -/
def writeCccr (v : Word) (r : ModeRegisters) : ModeRegisters :=
  let stored := cccrProtection.write (has r.cccr mcanCccrInit && has r.cccr mcanCccrCce) v r.cccr
  let stored := if has v mcanCccrCce && has v mcanCccrInit && has r.cccr mcanCccrInit then
    stored ||| mcanCccrCce else stored &&& ~~~mcanCccrCce
  let stored := if has v mcanCccrCsr || has r.cccr mcanCccrCsr then stored ||| mcanCccrInit
    else stored
  let stored := if has v mcanCccrCsr then stored ||| mcanCccrCsa else stored &&& ~~~mcanCccrCsa
  { cccr := stored, test := if has stored mcanCccrTest then r.test else 0#32 }

def orCccr (bits : Word) (r : ModeRegisters) : ModeRegisters := r.writeCccr (r.cccr ||| bits)
def andCccr (bits : Word) (r : ModeRegisters) : ModeRegisters := r.writeCccr (r.cccr &&& bits)

/-- `MCAN_TEST` is written only while TEST is set. -/
def writeTest (v : Word) (r : ModeRegisters) : ModeRegisters :=
  if has r.cccr mcanCccrTest then { r with test := v } else r

/-- The loop after a write that waits until `ready` holds. -/
def await (ready : Word → Bool) (r : ModeRegisters) : Option ModeRegisters :=
  if ready r.cccr then some r else none

/-! ## The driver's functions -/

def mcanStart (r : ModeRegisters) : Option ModeRegisters :=
  (r.andCccr (~~~mcanCccrInit)).await fun c => !has c mcanCccrInit

def mcanStop (r : ModeRegisters) : Option ModeRegisters :=
  (r.orCccr mcanCccrInit).await fun c => has c mcanCccrInit

/-- How the functions below that switch a mode on begin: configuration mode is entered. -/
def configured (r : ModeRegisters) : Option ModeRegisters :=
  ((r.orCccr mcanCccrInit).await fun c => has c mcanCccrInit).map (orCccr mcanCccrCce)

def mcanEnableFdMode (r : ModeRegisters) : Option ModeRegisters :=
  r.configured.map (orCccr (mcanCccrFdoe ||| mcanCccrBrse))

/-- The mask is not complemented: FDOE is the one bit that is kept. -/
def mcanDisableFdMode (r : ModeRegisters) : Option ModeRegisters :=
  r.configured.map (andCccr mcanCccrFdoe)

def mcanEnableRestrictedOperationMode (r : ModeRegisters) : Option ModeRegisters :=
  r.configured.map (orCccr mcanCccrAsm)

def mcanDisableRestrictedOperationMode (r : ModeRegisters) : Option ModeRegisters :=
  some (r.andCccr (~~~mcanCccrAsm))

def mcanEnableBusMonitorMode (r : ModeRegisters) : Option ModeRegisters :=
  r.configured.map (orCccr mcanCccrMon)

def mcanDisableBusMonitorMode (r : ModeRegisters) : Option ModeRegisters :=
  some (r.andCccr (~~~mcanCccrMon))

def mcanEnableSleepMode (r : ModeRegisters) : Option ModeRegisters :=
  (r.orCccr mcanCccrCsr).await fun c => has c mcanCccrInit && has c mcanCccrCsa

def mcanDisableSleepMode (r : ModeRegisters) : Option ModeRegisters :=
  (r.andCccr (~~~mcanCccrCsr)).await fun c => !has c mcanCccrCsa

def mcanEnableTestMode (r : ModeRegisters) : Option ModeRegisters :=
  r.configured.map fun r =>
    let r := r.orCccr mcanCccrTest
    r.writeTest (r.test ||| mcanTestLbck)

def mcanDisableTestMode (r : ModeRegisters) : Option ModeRegisters :=
  some (r.andCccr (~~~mcanCccrTest))

end ModeRegisters

inductive ModeCall where
  | start
  | stop
  | enableFdMode
  | disableFdMode
  | enableRestrictedOperationMode
  | disableRestrictedOperationMode
  | enableBusMonitorMode
  | disableBusMonitorMode
  | enableSleepMode
  | disableSleepMode
  | enableTestMode
  | disableTestMode
deriving DecidableEq

def modeRegistersStep (r : ModeRegisters) : ModeCall → Option ModeRegisters
  | .start => r.mcanStart
  | .stop => r.mcanStop
  | .enableFdMode => r.mcanEnableFdMode
  | .disableFdMode => r.mcanDisableFdMode
  | .enableRestrictedOperationMode => r.mcanEnableRestrictedOperationMode
  | .disableRestrictedOperationMode => r.mcanDisableRestrictedOperationMode
  | .enableBusMonitorMode => r.mcanEnableBusMonitorMode
  | .disableBusMonitorMode => r.mcanDisableBusMonitorMode
  | .enableSleepMode => r.mcanEnableSleepMode
  | .disableSleepMode => r.mcanDisableSleepMode
  | .enableTestMode => r.mcanEnableTestMode
  | .disableTestMode => r.mcanDisableTestMode

def modeRegistersMachine : Machine ModeRegisters ModeCall where
  step := modeRegistersStep

/-! ## The switches -/

/-- The modes, without the registers. -/
structure Modes where
  stopped : Bool
  configuring : Bool
  fd : Bool
  bitRateSwitch : Bool
  restricted : Bool
  monitor : Bool
  loopBack : Bool
  asleep : Bool
deriving DecidableEq

/-- What a call does to the modes. Disabling FD mode leaves FD mode as it was, ends every other mode
and starts the module, unless it was asleep. -/
def modesStep (m : Modes) : ModeCall → Option Modes
  | .start => if m.asleep then none else some { m with stopped := false, configuring := false }
  | .stop => some { m with stopped := true }
  | .enableFdMode =>
    some { m with stopped := true, configuring := true, fd := true, bitRateSwitch := true }
  | .disableFdMode =>
    some { stopped := m.asleep, configuring := false, fd := m.fd, bitRateSwitch := false
           restricted := false, monitor := false, loopBack := false, asleep := false }
  | .enableRestrictedOperationMode =>
    some { m with stopped := true, configuring := true, restricted := true }
  | .disableRestrictedOperationMode => some { m with restricted := false }
  | .enableBusMonitorMode => some { m with stopped := true, configuring := true, monitor := true }
  | .disableBusMonitorMode => some { m with monitor := false }
  | .enableSleepMode => some { m with stopped := true, asleep := true }
  | .disableSleepMode => some { m with asleep := false }
  | .enableTestMode => some { m with stopped := true, configuring := true, loopBack := true }
  | .disableTestMode => some { m with loopBack := false }

def modesMachine : Machine Modes ModeCall where
  step := modesStep

namespace ModeRegisters

def modes (r : ModeRegisters) : Modes where
  stopped := has r.cccr mcanCccrInit
  configuring := has r.cccr mcanCccrCce
  fd := has r.cccr mcanCccrFdoe
  bitRateSwitch := has r.cccr mcanCccrBrse
  restricted := has r.cccr mcanCccrAsm
  monitor := has r.cccr mcanCccrMon
  loopBack := has r.cccr mcanCccrTest
  asleep := has r.cccr mcanCccrCsr

/-- Configuration and clock stop imply INIT; loop back is on exactly in test mode. -/
structure Sound (r : ModeRegisters) : Prop where
  configuring : has r.cccr mcanCccrCce = true → has r.cccr mcanCccrInit = true
  asleep : has r.cccr mcanCccrCsr = true → has r.cccr mcanCccrInit = true
  loopBack : has r.test mcanTestLbck = has r.cccr mcanCccrTest

/-! ## What a write does -/

section Write

variable (v : Word) (r : ModeRegisters)

/-- Locked and clearable bits can be set. -/
def opened : Bool := has r.cccr mcanCccrInit && has r.cccr mcanCccrCce

/-- A bit that neither CCE nor the clock stop request is about. -/
theorem has_writeCccr {b : Word} (hcce : mcanCccrCce &&& b = 0#32) (hinit : mcanCccrInit &&& b = 0#32)
    (hcsa : mcanCccrCsa &&& b = 0#32) :
    has (r.writeCccr v).cccr b = has (cccrProtection.write r.opened v r.cccr) b := by
  simp only [writeCccr, opened]
  split <;> split <;> split <;>
    simp [has_or_of_disjoint hcce, has_or_of_disjoint hinit, has_or_of_disjoint hcsa,
      has_clear_of_disjoint hcce, has_clear_of_disjoint hcsa]

@[simp] theorem writeCccr_init : has (r.writeCccr v).cccr mcanCccrInit =
    (has v mcanCccrInit || has v mcanCccrCsr || has r.cccr mcanCccrCsr) := by
  have hfree : has (cccrProtection.write r.opened v r.cccr) mcanCccrInit = has v mcanCccrInit :=
    Protection.has_write_free (by decide)
  have hcce : mcanCccrCce &&& mcanCccrInit = 0#32 := by decide
  have hcsa : mcanCccrCsa &&& mcanCccrInit = 0#32 := by decide
  have hack : ∀ (c : Prop) [Decidable c] (w : Word),
      has (if c then w ||| mcanCccrCsa else w &&& ~~~mcanCccrCsa) mcanCccrInit =
        has w mcanCccrInit := by
    intro c _ w
    split
    · exact has_or_of_disjoint hcsa
    · exact has_clear_of_disjoint hcsa
  rw [opened] at hfree
  simp only [writeCccr]
  rw [hack, Bool.or_assoc]
  cases has v mcanCccrCsr || has r.cccr mcanCccrCsr with
  | true => rw [if_pos rfl, has_or_self (by decide), Bool.or_true]
  | false =>
    rw [if_neg Bool.false_ne_true, Bool.or_false]
    split
    · rw [has_or_of_disjoint hcce, hfree]
    · rw [has_clear_of_disjoint hcce, hfree]

@[simp] theorem writeCccr_cce :
    has (r.writeCccr v).cccr mcanCccrCce =
      (has v mcanCccrCce && has v mcanCccrInit && has r.cccr mcanCccrInit) := by
  have hinit : mcanCccrInit &&& mcanCccrCce = 0#32 := by decide
  have hcsa : mcanCccrCsa &&& mcanCccrCce = 0#32 := by decide
  have hstop : ∀ (c d : Prop) [Decidable c] [Decidable d] (w : Word),
      has (if d then (if c then w ||| mcanCccrInit else w) ||| mcanCccrCsa
        else (if c then w ||| mcanCccrInit else w) &&& ~~~mcanCccrCsa) mcanCccrCce =
        has w mcanCccrCce := by
    intro c d _ _ w
    split <;> split <;>
      simp only [has_or_of_disjoint hcsa, has_clear_of_disjoint hcsa, has_or_of_disjoint hinit]
  simp only [writeCccr]
  rw [hstop]
  cases has v mcanCccrCce && has v mcanCccrInit && has r.cccr mcanCccrInit with
  | true => rw [if_pos rfl, has_or_self (by decide)]
  | false => rw [if_neg Bool.false_ne_true, has_clear_self]

@[simp] theorem writeCccr_csa : has (r.writeCccr v).cccr mcanCccrCsa = has v mcanCccrCsr := by
  simp only [writeCccr]
  cases has v mcanCccrCsr with
  | true => rw [if_pos rfl, has_or_self (by decide)]
  | false => rw [if_neg Bool.false_ne_true, has_clear_self]

@[simp] theorem writeCccr_csr : has (r.writeCccr v).cccr mcanCccrCsr = has v mcanCccrCsr := by
  rw [has_writeCccr v r (by decide) (by decide) (by decide)]
  exact Protection.has_write_free (by decide)

@[simp] theorem writeCccr_fdoe : has (r.writeCccr v).cccr mcanCccrFdoe =
    if r.opened then has v mcanCccrFdoe else has r.cccr mcanCccrFdoe := by
  rw [has_writeCccr v r (by decide) (by decide) (by decide)]
  exact Protection.has_write_locked (by decide)

@[simp] theorem writeCccr_brse : has (r.writeCccr v).cccr mcanCccrBrse =
    if r.opened then has v mcanCccrBrse else has r.cccr mcanCccrBrse := by
  rw [has_writeCccr v r (by decide) (by decide) (by decide)]
  exact Protection.has_write_locked (by decide)

@[simp] theorem writeCccr_asm : has (r.writeCccr v).cccr mcanCccrAsm =
    (has v mcanCccrAsm && (r.opened || has r.cccr mcanCccrAsm)) := by
  rw [has_writeCccr v r (by decide) (by decide) (by decide)]
  exact Protection.has_write_clearable (by decide)

@[simp] theorem writeCccr_mon : has (r.writeCccr v).cccr mcanCccrMon =
    (has v mcanCccrMon && (r.opened || has r.cccr mcanCccrMon)) := by
  rw [has_writeCccr v r (by decide) (by decide) (by decide)]
  exact Protection.has_write_clearable (by decide)

@[simp] theorem writeCccr_test : has (r.writeCccr v).cccr mcanCccrTest =
    (has v mcanCccrTest && (r.opened || has r.cccr mcanCccrTest)) := by
  rw [has_writeCccr v r (by decide) (by decide) (by decide)]
  exact Protection.has_write_clearable (by decide)

theorem writeCccr_lbck : has (r.writeCccr v).test mcanTestLbck =
    (has (r.writeCccr v).cccr mcanCccrTest && has r.test mcanTestLbck) := by
  have htest : (r.writeCccr v).test =
      if has (r.writeCccr v).cccr mcanCccrTest then r.test else 0#32 := rfl
  rw [htest]
  cases has (r.writeCccr v).cccr mcanCccrTest <;> simp

theorem modes_writeCccr : (r.writeCccr v).modes =
    { stopped := has v mcanCccrInit || has v mcanCccrCsr || r.modes.asleep
      configuring := has v mcanCccrCce && has v mcanCccrInit && has r.cccr mcanCccrInit
      fd := if r.opened then has v mcanCccrFdoe else r.modes.fd
      bitRateSwitch := if r.opened then has v mcanCccrBrse else r.modes.bitRateSwitch
      restricted := has v mcanCccrAsm && (r.opened || r.modes.restricted)
      monitor := has v mcanCccrMon && (r.opened || r.modes.monitor)
      loopBack := has v mcanCccrTest && (r.opened || r.modes.loopBack)
      asleep := has v mcanCccrCsr } := by
  simp [modes]

/-- Without a clock stop request INIT and CCE become what `Mcan.writeCccr` makes of them. -/
theorem writeCccr_agree (m : Mcan) (hm : m.cccr = r.cccr) (hawake : has r.cccr mcanCccrCsr = false)
    (hcsr : has v mcanCccrCsr = false) :
    (m.writeCccr v).initBit = has (r.writeCccr v).cccr mcanCccrInit ∧
      (m.writeCccr v).cceBit = has (r.writeCccr v).cccr mcanCccrCce := by
  have hcce : mcanCccrCce &&& mcanCccrInit = 0#32 := by decide
  rw [writeCccr_init, writeCccr_cce, hcsr, hawake, Bool.or_false, Bool.or_false, ← hm]
  cases h : has v mcanCccrCce && has v mcanCccrInit && m.initBit with
  | true =>
    simp only [Mcan.initBit] at h
    simp only [Mcan.writeCccr, Mcan.initBit, Mcan.cceBit, h, if_true, true_and]
    simp only [Bool.and_eq_true] at h
    exact h.1.1
  | false =>
    simp only [Mcan.initBit] at h
    simp only [Mcan.writeCccr, Mcan.initBit, Mcan.cceBit, h, if_false, Bool.false_eq_true,
      has_clear_self, and_true]
    exact has_clear_of_disjoint hcce

end Write

variable {v bits : Word} {r : ModeRegisters}

/-- A write that does not set TEST. -/
theorem Sound.writeCccr (h : Sound r)
    (hv : has v mcanCccrTest = true → has r.cccr mcanCccrTest = true) : Sound (r.writeCccr v) where
  configuring hc := by
    simp only [writeCccr_cce, Bool.and_eq_true] at hc
    simp [hc.1.2]
  asleep hc := by
    rw [writeCccr_csr] at hc
    simp [hc]
  loopBack := by
    rw [writeCccr_lbck, h.loopBack, writeCccr_test]
    cases hvt : has v mcanCccrTest with
    | false => simp
    | true => simp [hv hvt]

theorem Sound.init_or_csr (h : Sound r) :
    (has r.cccr mcanCccrInit || has r.cccr mcanCccrCsr) = has r.cccr mcanCccrInit := by
  cases hcsr : has r.cccr mcanCccrCsr with
  | false => simp
  | true => simp [h.asleep hcsr]

theorem Sound.cce_and_init (h : Sound r) :
    (has r.cccr mcanCccrCce && has r.cccr mcanCccrInit) = has r.cccr mcanCccrCce := by
  cases hcce : has r.cccr mcanCccrCce with
  | false => simp
  | true => simp [h.configuring hcce]

/-- Writing a clearable bit as it is. -/
theorem and_or_same (a b : Bool) : (a && (b || a)) = a := by
  cases a <;> cases b <;> rfl

/-! ## What a call does -/

theorem disableRestricted_modes (h : Sound r) :
    (r.andCccr (~~~mcanCccrAsm)).modes = { r.modes with restricted := false } := by
  rw [andCccr, modes_writeCccr]
  simp (disch := decide) only [has_and_of_part, has_and_of_disjoint,
    h.init_or_csr, h.cce_and_init, modes, and_or_same, ite_self, Bool.false_and]

theorem disableMonitor_modes (h : Sound r) :
    (r.andCccr (~~~mcanCccrMon)).modes = { r.modes with monitor := false } := by
  rw [andCccr, modes_writeCccr]
  simp (disch := decide) only [has_and_of_part, has_and_of_disjoint,
    h.init_or_csr, h.cce_and_init, modes, and_or_same, ite_self, Bool.false_and]

theorem disableTest_modes (h : Sound r) :
    (r.andCccr (~~~mcanCccrTest)).modes = { r.modes with loopBack := false } := by
  rw [andCccr, modes_writeCccr]
  simp (disch := decide) only [has_and_of_part, has_and_of_disjoint,
    h.init_or_csr, h.cce_and_init, modes, and_or_same, ite_self, Bool.false_and]

theorem start_modes (r : ModeRegisters) :
    (r.andCccr (~~~mcanCccrInit)).modes =
      { r.modes with stopped := r.modes.asleep, configuring := false } := by
  rw [andCccr, modes_writeCccr]
  simp (disch := decide) only [has_and_of_part, has_and_of_disjoint,
    modes, and_or_same, ite_self, Bool.false_and, Bool.and_false, Bool.false_or,
    Bool.or_self]

theorem stop_modes (h : Sound r) :
    (r.orCccr mcanCccrInit).modes = { r.modes with stopped := true } := by
  rw [orCccr, modes_writeCccr]
  simp (disch := decide) only [has_or_of_part, has_or_of_disjoint,
    h.cce_and_init, modes, and_or_same, ite_self, Bool.true_or, Bool.and_true]

theorem sleep_modes (h : Sound r) :
    (r.orCccr mcanCccrCsr).modes = { r.modes with stopped := true, asleep := true } := by
  rw [orCccr, modes_writeCccr]
  simp (disch := decide) only [has_or_of_part, has_or_of_disjoint,
    h.cce_and_init, modes, and_or_same, ite_self, Bool.or_true, Bool.true_or]

theorem wake_modes (h : Sound r) :
    (r.andCccr (~~~mcanCccrCsr)).modes = { r.modes with asleep := false } := by
  rw [andCccr, modes_writeCccr]
  simp (disch := decide) only [has_and_of_part, has_and_of_disjoint,
    h.init_or_csr, h.cce_and_init, modes, and_or_same, ite_self, Bool.or_false]

theorem cce_modes (hinit : has r.cccr mcanCccrInit = true) :
    (r.orCccr mcanCccrCce).modes = { r.modes with stopped := true, configuring := true } := by
  rw [orCccr, modes_writeCccr]
  simp (disch := decide) only [has_or_of_part, has_or_of_disjoint,
    hinit, modes, and_or_same, ite_self, Bool.true_or, Bool.and_true]

theorem Sound.orCccr (h : Sound r) (hb : bits &&& mcanCccrTest = 0#32) : Sound (r.orCccr bits) :=
  h.writeCccr fun ht => by rwa [has_or_of_disjoint hb] at ht

theorem Sound.andCccr (h : Sound r) : Sound (r.andCccr bits) :=
  h.writeCccr fun ht => by
    rw [has_eq_true] at ht ⊢
    intro hz
    apply ht
    rw [BitVec.and_assoc, BitVec.and_comm bits, ← BitVec.and_assoc, hz, BitVec.zero_and]

theorem opened_init (ho : r.opened = true) : has r.cccr mcanCccrInit = true :=
  (Bool.and_eq_true _ _ ▸ ho).1
theorem opened_cce (ho : r.opened = true) : has r.cccr mcanCccrCce = true :=
  (Bool.and_eq_true _ _ ▸ ho).2

theorem enableFd_modes (ho : r.opened = true) : (r.orCccr (mcanCccrFdoe ||| mcanCccrBrse)).modes =
    { r.modes with stopped := true, configuring := true, fd := true, bitRateSwitch := true } := by
  rw [orCccr, modes_writeCccr]
  simp (disch := decide) only [has_or_of_part, has_or_of_disjoint, opened_init ho, opened_cce ho, ho,
    modes, if_true, Bool.true_or, Bool.and_true]

theorem enableRestricted_modes (ho : r.opened = true) : (r.orCccr mcanCccrAsm).modes =
    { r.modes with stopped := true, configuring := true, restricted := true } := by
  rw [orCccr, modes_writeCccr]
  simp (disch := decide) only [has_or_of_part, has_or_of_disjoint, opened_init ho, opened_cce ho, ho,
    modes, if_true, Bool.true_or, Bool.and_true]

theorem enableMonitor_modes (ho : r.opened = true) : (r.orCccr mcanCccrMon).modes =
    { r.modes with stopped := true, configuring := true, monitor := true } := by
  rw [orCccr, modes_writeCccr]
  simp (disch := decide) only [has_or_of_part, has_or_of_disjoint, opened_init ho, opened_cce ho, ho,
    modes, if_true, Bool.true_or, Bool.and_true]

theorem enableTest_modes (ho : r.opened = true) : (r.orCccr mcanCccrTest).modes =
    { r.modes with stopped := true, configuring := true, loopBack := true } := by
  rw [orCccr, modes_writeCccr]
  simp (disch := decide) only [has_or_of_part, has_or_of_disjoint, opened_init ho, opened_cce ho, ho,
    modes, if_true, Bool.true_or, Bool.and_true]

/-- Of all bits FDOE alone is left, and INIT after a clock stop. -/
theorem disableFd_modes (ho : r.opened = true) : (r.andCccr mcanCccrFdoe).modes =
    { stopped := r.modes.asleep, configuring := false, fd := r.modes.fd, bitRateSwitch := false
      restricted := false, monitor := false, loopBack := false, asleep := false } := by
  rw [andCccr, modes_writeCccr]
  simp (disch := decide) only [has_and_of_part, has_and_of_disjoint, ho, modes, if_true,
    Bool.false_and, Bool.false_or]

theorem configured_some (h : Sound r) :
    ∃ r', r.configured = some r' ∧ Sound r' ∧ r'.opened = true ∧
      r'.modes = { r.modes with stopped := true, configuring := true } := by
  have hstop := stop_modes h
  have hinit : has (r.orCccr mcanCccrInit).cccr mcanCccrInit = true := congrArg Modes.stopped hstop
  have hcce := cce_modes hinit
  rw [hstop] at hcce
  refine ⟨(r.orCccr mcanCccrInit).orCccr mcanCccrCce, ?_, ?_, ?_, hcce⟩
  · simp [configured, await, hinit]
  · exact (h.orCccr (by decide)).orCccr (by decide)
  · have hopen : (((r.orCccr mcanCccrInit).orCccr mcanCccrCce).modes.stopped &&
        ((r.orCccr mcanCccrInit).orCccr mcanCccrCce).modes.configuring) = true := by
      rw [hcce]
      rfl
    exact hopen

/-- Loop back is switched on once TEST is set. -/
theorem loopBack_sound (ho : r.opened = true) :
    Sound ((r.orCccr mcanCccrTest).writeTest ((r.orCccr mcanCccrTest).test ||| mcanTestLbck)) ∧
      ((r.orCccr mcanCccrTest).writeTest ((r.orCccr mcanCccrTest).test ||| mcanTestLbck)).modes =
        (r.orCccr mcanCccrTest).modes := by
  have hmodes := enableTest_modes ho
  have hinit : has (r.orCccr mcanCccrTest).cccr mcanCccrInit = true :=
    congrArg Modes.stopped hmodes
  have htest : has (r.orCccr mcanCccrTest).cccr mcanCccrTest = true :=
    congrArg Modes.loopBack hmodes
  rw [writeTest, if_pos htest]
  refine ⟨⟨fun _ => hinit, fun _ => hinit, ?_⟩, rfl⟩
  rw [htest]
  exact has_or_self (by decide)

/-- A call does to the registers what it does to the switches, and returns whenever that is
defined. -/
theorem step_refines (h : Sound r) (call : ModeCall) :
    (∃ r', modeRegistersStep r call = some r' ∧ Sound r' ∧ modesStep r.modes call = some r'.modes) ∨
      (modeRegistersStep r call = none ∧ modesStep r.modes call = none) := by
  obtain ⟨r1, hr1, h1, ho, hmodes⟩ := configured_some h
  cases call with
  | start =>
    have hstart := start_modes r
    have hinit : has (r.andCccr (~~~mcanCccrInit)).cccr mcanCccrInit = r.modes.asleep :=
      congrArg Modes.stopped hstart
    cases hasleep : r.modes.asleep with
    | true =>
      right
      simp [modeRegistersStep, mcanStart, await, hinit, hasleep, modesStep]
    | false =>
      left
      refine ⟨r.andCccr (~~~mcanCccrInit), ?_, h.andCccr, ?_⟩
      · simp [modeRegistersStep, mcanStart, await, hinit, hasleep]
      · rw [hstart]
        simp [modesStep, hasleep]
  | stop =>
    left
    have hstop := stop_modes h
    have hinit : has (r.orCccr mcanCccrInit).cccr mcanCccrInit = true :=
      congrArg Modes.stopped hstop
    refine ⟨r.orCccr mcanCccrInit, ?_, h.orCccr (by decide), ?_⟩
    · simp [modeRegistersStep, mcanStop, await, hinit]
    · rw [hstop]
      rfl
  | enableFdMode =>
    left
    refine ⟨_, by rw [modeRegistersStep, mcanEnableFdMode, hr1]; rfl, h1.orCccr (by decide), ?_⟩
    rw [enableFd_modes ho, hmodes]
    rfl
  | disableFdMode =>
    left
    refine ⟨_, by rw [modeRegistersStep, mcanDisableFdMode, hr1]; rfl, h1.andCccr, ?_⟩
    rw [disableFd_modes ho, hmodes]
    rfl
  | enableRestrictedOperationMode =>
    left
    refine ⟨_, by rw [modeRegistersStep, mcanEnableRestrictedOperationMode, hr1]; rfl,
      h1.orCccr (by decide), ?_⟩
    rw [enableRestricted_modes ho, hmodes]
    rfl
  | disableRestrictedOperationMode =>
    left
    refine ⟨_, rfl, h.andCccr, ?_⟩
    rw [disableRestricted_modes h]
    rfl
  | enableBusMonitorMode =>
    left
    refine ⟨_, by rw [modeRegistersStep, mcanEnableBusMonitorMode, hr1]; rfl,
      h1.orCccr (by decide), ?_⟩
    rw [enableMonitor_modes ho, hmodes]
    rfl
  | disableBusMonitorMode =>
    left
    refine ⟨_, rfl, h.andCccr, ?_⟩
    rw [disableMonitor_modes h]
    rfl
  | enableSleepMode =>
    left
    have hsleep := sleep_modes h
    have hinit : has (r.orCccr mcanCccrCsr).cccr mcanCccrInit = true :=
      congrArg Modes.stopped hsleep
    have hcsa : has (r.orCccr mcanCccrCsr).cccr mcanCccrCsa = true := by
      rw [ModeRegisters.orCccr, writeCccr_csa, has_or_self (by decide)]
    refine ⟨r.orCccr mcanCccrCsr, ?_, h.orCccr (by decide), ?_⟩
    · simp [modeRegistersStep, mcanEnableSleepMode, await, hinit, hcsa]
    · rw [hsleep]
      rfl
  | disableSleepMode =>
    left
    have hcsa : has (r.andCccr (~~~mcanCccrCsr)).cccr mcanCccrCsa = false := by
      rw [ModeRegisters.andCccr, writeCccr_csa, has_clear_self]
    refine ⟨r.andCccr (~~~mcanCccrCsr), ?_, h.andCccr, ?_⟩
    · simp [modeRegistersStep, mcanDisableSleepMode, await, hcsa]
    · rw [wake_modes h]
      rfl
  | enableTestMode =>
    left
    obtain ⟨hsound, hsame⟩ := loopBack_sound ho
    refine ⟨_, by rw [modeRegistersStep, mcanEnableTestMode, hr1]; rfl, hsound, ?_⟩
    rw [hsame, enableTest_modes ho, hmodes]
    rfl
  | disableTestMode =>
    left
    refine ⟨_, rfl, h.andCccr, ?_⟩
    rw [disableTest_modes h]
    rfl

/-! ## Runs -/

theorem modes_run (calls : List ModeCall) : ∀ {r : ModeRegisters}, Sound r →
    (modeRegistersMachine.run r calls).map modes = modesMachine.run r.modes calls := by
  induction calls with
  | nil => intro r _; rfl
  | cons call calls ih =>
    intro r h
    rcases step_refines h call with ⟨r', hr', hsound, hmodes⟩ | ⟨hnone, hstuck⟩
    · have hr : modeRegistersMachine.step r call = some r' := hr'
      have hm : modesMachine.step r.modes call = some r'.modes := hmodes
      rw [Machine.run_cons_some hr, Machine.run_cons_some hm]
      exact ih hsound
    · simp [Machine.run, modeRegistersMachine, modesMachine, hnone, hstuck]

/-- No call ends FD mode. -/
theorem fd_run (calls : List ModeCall) : ∀ {m m' : Modes}, modesMachine.run m calls = some m' →
    (m'.fd = true ↔ m.fd = true ∨ .enableFdMode ∈ calls) := by
  induction calls with
  | nil =>
    intro m m' h
    cases h
    simp
  | cons call calls ih =>
    intro m m' h
    cases hs : modesMachine.step m call with
    | none => simp [Machine.run, hs] at h
    | some m1 =>
      rw [Machine.run_cons_some hs] at h
      have hfirst : m1.fd = true ↔ m.fd = true ∨ .enableFdMode = call := by
        cases call <;> simp only [modesMachine, modesStep, Option.some.injEq] at hs
        case start =>
          split at hs
          · cases hs
          · cases hs
            simp
        all_goals
          subst hs
          simp
      rw [ih h, hfirst, List.mem_cons, or_assoc]

end ModeRegisters

/-- **Driver modes.** Along every run of the driver's mode functions the registers are the switches:
a run returns exactly if the switches' run is defined, and leaves them as it leaves these. FD mode is
on exactly if it was on at first or has been enabled; it is never left. -/
theorem modes_follow {r : ModeRegisters} (h : r.Sound) (calls : List ModeCall) :
    (modeRegistersMachine.run r calls).map ModeRegisters.modes = modesMachine.run r.modes calls ∧
      ∀ r', modeRegistersMachine.run r calls = some r' →
        (has r'.cccr mcanCccrFdoe = true ↔
          has r.cccr mcanCccrFdoe = true ∨ .enableFdMode ∈ calls) := by
  refine ⟨ModeRegisters.modes_run calls h, fun r' hr => ?_⟩
  have hmodes := ModeRegisters.modes_run calls h
  rw [hr] at hmodes
  exact ModeRegisters.fd_run calls hmodes.symm

/-- The registers at power-on. -/
def modeReset : ModeRegisters where
  cccr := mcanCccrInit
  test := 0#32

theorem modeReset_sound : modeReset.Sound where
  configuring := by decide
  asleep := by decide
  loopBack := by decide

/-- Disabling FD mode starts the module with FD mode on. -/
theorem modes_follow_disableFd :
    (modeRegistersMachine.run modeReset [.enableFdMode, .disableFdMode]).map ModeRegisters.modes =
      modesMachine.run modeReset.modes [.enableFdMode, .disableFdMode] ∧
    modesMachine.run modeReset.modes [.enableFdMode, .disableFdMode] =
      some { stopped := false, configuring := false, fd := true, bitRateSwitch := false
             restricted := false, monitor := false, loopBack := false, asleep := false } :=
  ⟨(modes_follow modeReset_sound _).1, by decide⟩

end CanNet
