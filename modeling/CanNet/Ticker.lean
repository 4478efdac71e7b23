import CanNet.Config
import CanNet.Lib.Bits

/-!
# CanNet.Ticker

The ticker service of `tc.c` over the timer channels, the NVIC and the peripheral clocks, and the
telemetry ticker of `conf_telemetry.c`.

The compare register of an initialised ticker always holds the count of the recorded period;
whether that count encodes the period is up to `tc_ticker_check_valid_period`, which only
`tc_ticker_update_period` consults.
-/

namespace CanNet

open Bits

/-! ## The hardware -/

inductive TcInstance where
  | tc0
  | tc1
  | tc2
  | tc3
deriving DecidableEq

structure TcChannel where
  cmr : Word
  rc : Word
  imr : Word
  emr : Word
  sr : Word
  cv : Word
  clockEnabled : Bool

def tcCcrClken : Word := 1#32 <<< 0
def tcCcrClkdis : Word := 1#32 <<< 1
def tcCcrSwtrg : Word := 1#32 <<< 2
def tcCmrCpctrg : Word := 1#32 <<< 14
def tcCmrTcclksTimerClock4 : Word := 3#32
def tcIerCpcs : Word := 1#32 <<< 4
def tcEmrNodivclk : Word := 1#32 <<< 8

/-- `TC_CCR`: the clock is switched, and a software trigger resets the counter. -/
def TcChannel.writeCcr (v : Word) (ch : TcChannel) : TcChannel :=
  { ch with
    clockEnabled := if has v tcCcrClkdis then false else ch.clockEnabled || has v tcCcrClken
    cv := if has v tcCcrSwtrg then 0#32 else ch.cv }

structure Timers where
  channel : TcInstance → Word → TcChannel
  nvicEnabled : Word → Bool
  nvicPending : Word → Bool
  nvicPriority : Word → Byte
  periphClock : BitVec 7 → Bool

namespace Timers

def onChannel (tc : TcInstance) (ch : Word) (f : TcChannel → TcChannel) (s : Timers) : Timers :=
  { s with channel := fun t c => if t = tc ∧ c = ch then f (s.channel t c) else s.channel t c }

@[simp] theorem onChannel_same (tc : TcInstance) (ch : Word) (f : TcChannel → TcChannel)
    (s : Timers) : (s.onChannel tc ch f).channel tc ch = f (s.channel tc ch) := by
  simp [onChannel]

end Timers

/-- The NVIC functions do nothing for a negative interrupt number. -/
def nvicEnableIrq (irqn : Word) (s : Timers) : Timers :=
  if irqn.msb then s else { s with nvicEnabled := Function.update s.nvicEnabled irqn true }

def nvicDisableIrq (irqn : Word) (s : Timers) : Timers :=
  if irqn.msb then s else { s with nvicEnabled := Function.update s.nvicEnabled irqn false }

def nvicGetEnableIrq (irqn : Word) (s : Timers) : Bool :=
  if irqn.msb then false else s.nvicEnabled irqn

def nvicClearPendingIrq (irqn : Word) (s : Timers) : Timers :=
  if irqn.msb then s else { s with nvicPending := Function.update s.nvicPending irqn false }

/-- Three priority bits, at the top of the byte. A negative number names a system handler, whose
priority lives elsewhere and is not modelled. -/
def nvicSetPriority (irqn priority : Word) (s : Timers) : Timers :=
  if irqn.msb then s
  else { s with nvicPriority :=
    Function.update s.nvicPriority irqn ((priority <<< 5).setWidth 8) }

def sysclkEnablePeripheralClock (id : Word) (s : Timers) : Timers :=
  { s with periphClock := Function.update s.periphClock (id.setWidth 7) true }

/-- `pmc_disable_periph_clk` writes `PMC_PCR` back as it reads it: EN stays as it was. -/
def sysclkDisablePeripheralClock (id : Word) (s : Timers) : Timers :=
  { s with periphClock :=
    Function.update s.periphClock (id.setWidth 7) (s.periphClock (id.setWidth 7)) }

/-! ## The timer driver -/

def tcInit (tc : TcInstance) (ch mode : Word) (s : Timers) : Timers :=
  s.onChannel tc ch fun c => { c.writeCcr tcCcrClkdis with imr := 0#32, sr := 0#32, cmr := mode }

def tcConfigureToNoDivideClock (tc : TcInstance) (ch : Word) (s : Timers) : Timers :=
  s.onChannel tc ch fun c => { c with emr := c.emr ||| tcEmrNodivclk }

def tcStart (tc : TcInstance) (ch : Word) (s : Timers) : Timers :=
  s.onChannel tc ch (TcChannel.writeCcr (tcCcrClken ||| tcCcrSwtrg))

def tcStop (tc : TcInstance) (ch : Word) (s : Timers) : Timers :=
  s.onChannel tc ch (TcChannel.writeCcr tcCcrClkdis)

def tcWriteRc (tc : TcInstance) (ch value : Word) (s : Timers) : Timers :=
  s.onChannel tc ch fun c => { c with rc := value }

def tcEnableInterrupt (tc : TcInstance) (ch sources : Word) (s : Timers) : Timers :=
  s.onChannel tc ch fun c => { c with imr := c.imr ||| sources }

/-! ## The ticker -/

/-- `tc_ticker_t`. -/
structure TcTicker where
  tc : TcInstance
  tcChannel : Word
  tcId : Word
  tcIrqn : Word
  tcIrqPriority : Word
  tcClock : Word
  tcDivisor : Word
  tcPeriodInMs : Word
deriving DecidableEq

def boardMck : Word := 300000000#32
def tcCounterMaxValue : BitVec 64 := 0xFFFF#64
def tcCounterInvalidValue : BitVec 64 := 0#64

def tcTickerGetMaxCountForPeriod (ticker : TcTicker) (periodInMs : Word) : Word :=
  let result := (boardMck / ticker.tcDivisor).setWidth 64 * periodInMs.setWidth 64 / 1000#64
  let result := if tcCounterMaxValue < result then tcCounterInvalidValue else result
  result.setWidth 32

def tcTickerCheckValidPeriod (ticker : TcTicker) (period : Word) : Bool :=
  (tcTickerGetMaxCountForPeriod ticker period).setWidth 64 != tcCounterInvalidValue

def tcTickerGetMaxCount (ticker : TcTicker) : Word :=
  tcTickerGetMaxCountForPeriod ticker ticker.tcPeriodInMs

def tcTickerInit (ticker : TcTicker) (s : Timers) : Timers :=
  let s := sysclkEnablePeripheralClock ticker.tcId s
  let s := if ticker.tcDivisor = 1#32 then
    tcConfigureToNoDivideClock ticker.tc ticker.tcChannel s else s
  let countsMax := tcTickerGetMaxCount ticker
  let s := tcInit ticker.tc ticker.tcChannel (ticker.tcClock ||| tcCmrCpctrg) s
  let s := tcWriteRc ticker.tc ticker.tcChannel countsMax s
  tcEnableInterrupt ticker.tc ticker.tcChannel tcIerCpcs s

def tcTickerStop (ticker : TcTicker) (s : Timers) : Timers :=
  let s := nvicDisableIrq ticker.tcIrqn s
  let s := nvicClearPendingIrq ticker.tcIrqn s
  let s := sysclkDisablePeripheralClock ticker.tcId s
  tcStop ticker.tc ticker.tcChannel s

def tcTickerStart (ticker : TcTicker) (s : Timers) : Timers :=
  let s := nvicDisableIrq ticker.tcIrqn s
  let s := nvicClearPendingIrq ticker.tcIrqn s
  let s := nvicSetPriority ticker.tcIrqn ticker.tcIrqPriority s
  let s := nvicEnableIrq ticker.tcIrqn s
  let s := sysclkEnablePeripheralClock ticker.tcId s
  tcStart ticker.tc ticker.tcChannel s

def tcTickerDisableIrq (ticker : TcTicker) (s : Timers) : Timers :=
  nvicDisableIrq ticker.tcIrqn s

def tcTickerEnableIrq (ticker : TcTicker) (s : Timers) : Timers :=
  nvicEnableIrq ticker.tcIrqn s

def tcTickerKick (ticker : TcTicker) (s : Timers) : Timers :=
  tcStart ticker.tc ticker.tcChannel s

def tcTickerUpdatePeriod (ticker : TcTicker) (period : Word) (s : Timers) :
    StatusCode × TcTicker × Timers :=
  if tcTickerCheckValidPeriod ticker period then
    let irqOn := nvicGetEnableIrq ticker.tcIrqn s
    let s := tcTickerDisableIrq ticker s
    let ticker := { ticker with tcPeriodInMs := period }
    let s := tcWriteRc ticker.tc ticker.tcChannel (tcTickerGetMaxCount ticker) s
    let s := if irqOn then tcTickerEnableIrq ticker s else s
    (.statusOk, ticker, s)
  else (.errInvalidArg, ticker, s)

/-- `TELEMETRY_TICKER`. -/
def telemetryTicker : TcTicker where
  tc := .tc0
  tcChannel := 0#32
  tcId := 23#32
  tcIrqn := 23#32
  tcIrqPriority := 5#32
  tcClock := tcCmrTcclksTimerClock4
  tcDivisor := 128#32
  tcPeriodInMs := 1000#32

/-! ## The count -/

/-- The count of a period in exact arithmetic. -/
def exactCount (ticker : TcTicker) (period : Word) : Nat :=
  boardMck.toNat / ticker.tcDivisor.toNat * period.toNat / 1000

/-- The 64-bit product does not wrap. -/
theorem count64_toNat (ticker : TcTicker) (period : Word) :
    ((boardMck / ticker.tcDivisor).setWidth 64 * period.setWidth 64 / 1000#64).toNat =
      exactCount ticker period := by
  have hmck : boardMck.toNat = 300000000 := rfl
  have hq : boardMck.toNat / ticker.tcDivisor.toNat ≤ 300000000 := by
    rw [hmck]; exact Nat.div_le_self _ _
  have hprod : boardMck.toNat / ticker.tcDivisor.toNat * period.toNat ≤ 300000000 * 2 ^ 32 :=
    Nat.mul_le_mul hq (Nat.le_of_lt period.isLt)
  have hq64 : boardMck.toNat / ticker.tcDivisor.toNat < 2 ^ 64 := by omega
  have hp64 : period.toNat < 2 ^ 64 := by omega
  have hprod64 : boardMck.toNat / ticker.tcDivisor.toNat * period.toNat < 2 ^ 64 := by omega
  rw [BitVec.toNat_udiv, BitVec.toNat_mul, BitVec.toNat_setWidth, BitVec.toNat_setWidth,
    BitVec.toNat_udiv, Nat.mod_eq_of_lt hq64, Nat.mod_eq_of_lt hp64, Nat.mod_eq_of_lt hprod64]
  rfl

/-- The count the function returns, as a number. -/
theorem maxCount_toNat (ticker : TcTicker) (period : Word) :
    (tcTickerGetMaxCountForPeriod ticker period).toNat =
      if exactCount ticker period ≤ 0xFFFF then exactCount ticker period else 0 := by
  have hresult := count64_toNat ticker period
  simp only [tcTickerGetMaxCountForPeriod, BitVec.lt_def, hresult]
  split
  · rename_i hbig
    have hout : ¬ exactCount ticker period ≤ 0xFFFF := Nat.not_le.mpr hbig
    rw [if_neg hout]
    rfl
  · rename_i hsmall
    have hle : exactCount ticker period ≤ 0xFFFF := Nat.not_lt.mp hsmall
    rw [if_pos hle, BitVec.toNat_setWidth, hresult, Nat.mod_eq_of_lt (by omega)]

theorem checkValidPeriod_iff (ticker : TcTicker) (period : Word) :
    tcTickerCheckValidPeriod ticker period = true ↔
      (tcTickerGetMaxCountForPeriod ticker period).toNat ≠ 0 := by
  have hlt := (tcTickerGetMaxCountForPeriod ticker period).isLt
  rw [tcTickerCheckValidPeriod, bne_iff_ne, tcCounterInvalidValue, ne_eq, ← BitVec.toNat_inj,
    BitVec.toNat_setWidth, Nat.mod_eq_of_lt (by omega)]
  exact Iff.rfl

/-! ## Runs of the ticker -/

inductive TickerEvent where
  | start
  | stop
  | kick
  | enableIrq
  | disableIrq
  | updatePeriod (period : Word)
deriving DecidableEq

def tickerStep (p : TcTicker × Timers) : TickerEvent → TcTicker × Timers
  | .start => (p.1, tcTickerStart p.1 p.2)
  | .stop => (p.1, tcTickerStop p.1 p.2)
  | .kick => (p.1, tcTickerKick p.1 p.2)
  | .enableIrq => (p.1, tcTickerEnableIrq p.1 p.2)
  | .disableIrq => (p.1, tcTickerDisableIrq p.1 p.2)
  | .updatePeriod period => (tcTickerUpdatePeriod p.1 period p.2).2

/-- The state after `tc_ticker_init` and the calls `es`. -/
def tickerRun (ticker : TcTicker) (s : Timers) (es : List TickerEvent) : TcTicker × Timers :=
  es.foldl tickerStep (ticker, tcTickerInit ticker s)

def compareRegister (p : TcTicker × Timers) : Word := (p.2.channel p.1.tc p.1.tcChannel).rc

/-- The compare register is in range and encodes the recorded period. -/
def ValidCompare (p : TcTicker × Timers) : Prop :=
  1 ≤ (compareRegister p).toNat ∧ (compareRegister p).toNat ≤ 0xFFFF ∧
    (compareRegister p).toNat =
      boardMck.toNat / p.1.tcDivisor.toNat * p.1.tcPeriodInMs.toNat / 1000

instance : DecidablePred ValidCompare := fun p =>
  inferInstanceAs (Decidable (1 ≤ (compareRegister p).toNat ∧ (compareRegister p).toNat ≤ 0xFFFF ∧
    (compareRegister p).toNat =
      boardMck.toNat / p.1.tcDivisor.toNat * p.1.tcPeriodInMs.toNat / 1000))

@[simp] theorem writeCcr_rc (v : Word) (ch : TcChannel) : (ch.writeCcr v).rc = ch.rc := rfl

@[simp] theorem nvicEnableIrq_channel (irqn : Word) (s : Timers) :
    (nvicEnableIrq irqn s).channel = s.channel := by
  unfold nvicEnableIrq; split <;> rfl
@[simp] theorem nvicDisableIrq_channel (irqn : Word) (s : Timers) :
    (nvicDisableIrq irqn s).channel = s.channel := by
  unfold nvicDisableIrq; split <;> rfl
@[simp] theorem nvicClearPendingIrq_channel (irqn : Word) (s : Timers) :
    (nvicClearPendingIrq irqn s).channel = s.channel := by
  unfold nvicClearPendingIrq; split <;> rfl
@[simp] theorem nvicSetPriority_channel (irqn priority : Word) (s : Timers) :
    (nvicSetPriority irqn priority s).channel = s.channel := by
  unfold nvicSetPriority; split <;> rfl
@[simp] theorem sysclkEnablePeripheralClock_channel (id : Word) (s : Timers) :
    (sysclkEnablePeripheralClock id s).channel = s.channel := rfl
@[simp] theorem sysclkDisablePeripheralClock_channel (id : Word) (s : Timers) :
    (sysclkDisablePeripheralClock id s).channel = s.channel := rfl

/-- The compare register holds the count of the recorded period, valid or not. -/
def Programmed (p : TcTicker × Timers) : Prop := compareRegister p = tcTickerGetMaxCount p.1

theorem programmed_init (ticker : TcTicker) (s : Timers) :
    Programmed (ticker, tcTickerInit ticker s) := by
  simp [Programmed, compareRegister, tcTickerInit, tcEnableInterrupt, tcWriteRc]

/-- What a step does to the record and to the compare register. -/
theorem tickerStep_cases (p : TcTicker × Timers) (e : TickerEvent) :
    ((tickerStep p e).1 = p.1 ∧ compareRegister (tickerStep p e) = compareRegister p ∧
      ∀ period, e = .updatePeriod period → tcTickerCheckValidPeriod p.1 period = false) ∨
    ∃ period, e = .updatePeriod period ∧ tcTickerCheckValidPeriod p.1 period = true ∧
      (tickerStep p e).1 = { p.1 with tcPeriodInMs := period } ∧ Programmed (tickerStep p e) := by
  obtain ⟨ticker, s⟩ := p
  cases e with
  | start =>
    left
    refine ⟨rfl, ?_, fun _ h => by cases h⟩
    simp [compareRegister, tickerStep, tcTickerStart, tcStart]
  | stop =>
    left
    refine ⟨rfl, ?_, fun _ h => by cases h⟩
    simp [compareRegister, tickerStep, tcTickerStop, tcStop]
  | kick =>
    left
    refine ⟨rfl, ?_, fun _ h => by cases h⟩
    simp [compareRegister, tickerStep, tcTickerKick, tcStart]
  | enableIrq =>
    left
    refine ⟨rfl, ?_, fun _ h => by cases h⟩
    simp [compareRegister, tickerStep, tcTickerEnableIrq]
  | disableIrq =>
    left
    refine ⟨rfl, ?_, fun _ h => by cases h⟩
    simp [compareRegister, tickerStep, tcTickerDisableIrq]
  | updatePeriod period =>
    cases hv : tcTickerCheckValidPeriod ticker period with
    | false =>
      left
      have hsame : tickerStep (ticker, s) (.updatePeriod period) = (ticker, s) := by
        simp [tickerStep, tcTickerUpdatePeriod, hv]
      rw [hsame]
      refine ⟨rfl, rfl, fun q hq => ?_⟩
      cases hq
      exact hv
    | true =>
      right
      refine ⟨period, rfl, hv, ?_, ?_⟩
      · simp [tickerStep, tcTickerUpdatePeriod, hv]
      · simp only [Programmed, compareRegister, tickerStep, tcTickerUpdatePeriod, hv, if_true]
        split <;> simp [tcTickerEnableIrq, tcWriteRc]

/-- A programmed compare register is valid exactly when the recorded period is. -/
theorem validCompare_iff {p : TcTicker × Timers} (h : Programmed p) :
    ValidCompare p ↔ tcTickerCheckValidPeriod p.1 p.1.tcPeriodInMs = true := by
  rw [checkValidPeriod_iff, ValidCompare, h, tcTickerGetMaxCount, maxCount_toNat, exactCount]
  split <;> omega

theorem programmed_step {p : TcTicker × Timers} (h : Programmed p) (e : TickerEvent) :
    Programmed (tickerStep p e) := by
  rcases tickerStep_cases p e with ⟨hticker, hrc, _⟩ | ⟨_, _, _, _, hprog⟩
  · rw [Programmed, hrc, hticker]
    exact h
  · exact hprog

theorem validCompare_run_iff (es : List TickerEvent) : ∀ {p : TcTicker × Timers}, Programmed p →
    (ValidCompare (es.foldl tickerStep p) ↔
      tcTickerCheckValidPeriod p.1 p.1.tcPeriodInMs = true ∨
        ∃ period, .updatePeriod period ∈ es ∧ tcTickerCheckValidPeriod p.1 period = true) := by
  induction es with
  | nil =>
    intro p hp
    rw [List.foldl_nil, validCompare_iff hp]
    simp
  | cons e es ih =>
    intro p hp
    rw [List.foldl_cons, ih (programmed_step hp e)]
    rcases tickerStep_cases p e with ⟨hticker, _, hrefused⟩ | ⟨period, rfl, hvalid, hticker, _⟩
    · rw [hticker]
      constructor
      · rintro (hv | ⟨q, hq, hv⟩)
        · exact .inl hv
        · exact .inr ⟨q, List.mem_cons_of_mem e hq, hv⟩
      · rintro (hv | ⟨q, hq, hv⟩)
        · exact .inl hv
        · rcases List.mem_cons.mp hq with he | hq
          · rw [hrefused q he.symm] at hv; cases hv
          · exact .inr ⟨q, hq, hv⟩
    · rw [hticker]
      constructor
      · intro _; exact .inr ⟨period, List.mem_cons_self, hvalid⟩
      · intro _; exact .inl hvalid

/-- **Compare register.** After `tc_ticker_init` and any calls the compare register encodes the
recorded period exactly when the period at initialisation was valid or a later one was. -/
theorem ticker_compare_iff (ticker : TcTicker) (s : Timers) (es : List TickerEvent) :
    ValidCompare (tickerRun ticker s es) ↔
      tcTickerCheckValidPeriod ticker ticker.tcPeriodInMs = true ∨
        ∃ period, .updatePeriod period ∈ es ∧ tcTickerCheckValidPeriod ticker period = true :=
  validCompare_run_iff es (programmed_init ticker s)

/-- The timers at power-on. -/
def timersReset : Timers where
  channel _ _ := { cmr := 0#32, rc := 0#32, imr := 0#32, emr := 0#32, sr := 0#32, cv := 0#32
                   clockEnabled := false }
  nvicEnabled _ := false
  nvicPending _ := false
  nvicPriority _ := 0#8
  periphClock _ := false

/-- What `telemetry_init` makes of the telemetry ticker: a second is too long for it. -/
theorem ticker_compare_telemetry :
    telemetryTicker.tcDivisor ≠ 0#32 ∧ telemetryTicker.tcPeriodInMs ≠ 0#32 ∧
      ¬ ValidCompare (tickerRun telemetryTicker timersReset [.start]) := by
  decide

end CanNet
