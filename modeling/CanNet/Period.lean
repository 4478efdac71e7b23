import CanNet.Ticker

/-!
# CanNet.Period

`tc_ticker_update_period` as a whole: which periods it accepts, and that it changes either the
period and the compare register or nothing.
-/

namespace CanNet

open Bits

/-- The periods whose exact count fits the counter and is not 0. -/
def Representable (ticker : TcTicker) (period : Word) : Prop :=
  1 ≤ exactCount ticker period ∧ exactCount ticker period ≤ 0xFFFF

theorem checkValidPeriod_representable (ticker : TcTicker) (period : Word) :
    tcTickerCheckValidPeriod ticker period = true ↔ Representable ticker period := by
  rw [checkValidPeriod_iff, maxCount_toNat, Representable]
  split <;> omega

/-- A representable count fits the compare register. -/
theorem Representable.count_toNat {ticker : TcTicker} {period : Word}
    (h : Representable ticker period) :
    (BitVec.ofNat 32 (exactCount ticker period)).toNat = exactCount ticker period := by
  have hle : exactCount ticker period ≤ 0xFFFF := h.2
  rw [BitVec.toNat_ofNat, Nat.mod_eq_of_lt (by omega)]

/-- Of a representable period the count is not truncated. -/
theorem maxCount_eq {ticker : TcTicker} {period : Word} (h : Representable ticker period) :
    tcTickerGetMaxCountForPeriod ticker period = BitVec.ofNat 32 (exactCount ticker period) := by
  apply BitVec.eq_of_toNat_eq
  rw [maxCount_toNat, if_pos h.2, h.count_toNat]

theorem exactCount_mono (ticker : TcTicker) {p q : Word} (h : p ≤ q) :
    exactCount ticker p ≤ exactCount ticker q :=
  Nat.div_le_div_right (Nat.mul_le_mul_left _ (BitVec.le_def.mp h))

/-- Between two representable periods every period is representable. -/
theorem representable_interval {ticker : TcTicker} {p q r : Word} (hpq : p ≤ q) (hqr : q ≤ r)
    (hp : Representable ticker p) (hr : Representable ticker r) : Representable ticker q :=
  ⟨Nat.le_trans hp.1 (exactCount_mono ticker hpq), Nat.le_trans (exactCount_mono ticker hqr) hr.2⟩

/-! ## The interrupt enable bit -/

/-- Disabling an interrupt, writing the compare register and enabling the interrupt again if it was
enabled comes to the write. -/
theorem writeRc_irqSaved (irqn : Word) (tc : TcInstance) (ch value : Word) (s : Timers) :
    (if nvicGetEnableIrq irqn s then
      nvicEnableIrq irqn (tcWriteRc tc ch value (nvicDisableIrq irqn s))
    else tcWriteRc tc ch value (nvicDisableIrq irqn s)) = tcWriteRc tc ch value s := by
  unfold nvicGetEnableIrq nvicEnableIrq nvicDisableIrq
  cases irqn.msb with
  | true => rfl
  | false =>
    cases h : s.nvicEnabled irqn with
    | true =>
      have hback : Function.update (Function.update s.nvicEnabled irqn false) irqn true =
          s.nvicEnabled := by
        rw [Function.update_idem, ← h, Function.update_eq_self]
      simp only [Bool.false_eq_true, if_false, if_true, tcWriteRc, Timers.onChannel, hback]
    | false =>
      have hsame : Function.update s.nvicEnabled irqn false = s.nvicEnabled := by
        rw [← h, Function.update_eq_self]
      simp only [Bool.false_eq_true, if_false, tcWriteRc, Timers.onChannel, hsame]

/-! ## The whole call -/

theorem updatePeriod_accepted {ticker : TcTicker} {period : Word} (s : Timers)
    (h : Representable ticker period) :
    tcTickerUpdatePeriod ticker period s =
      (.statusOk, { ticker with tcPeriodInMs := period },
        tcWriteRc ticker.tc ticker.tcChannel (BitVec.ofNat 32 (exactCount ticker period)) s) := by
  have hvalid : tcTickerCheckValidPeriod ticker period = true :=
    (checkValidPeriod_representable ticker period).mpr h
  have hcount : tcTickerGetMaxCount { ticker with tcPeriodInMs := period } =
      BitVec.ofNat 32 (exactCount ticker period) := maxCount_eq h
  rw [tcTickerUpdatePeriod, if_pos hvalid]
  simp only [hcount, tcTickerDisableIrq, tcTickerEnableIrq]
  rw [writeRc_irqSaved]

theorem updatePeriod_refused {ticker : TcTicker} {period : Word} (s : Timers)
    (h : ¬ Representable ticker period) :
    tcTickerUpdatePeriod ticker period s = (.errInvalidArg, ticker, s) := by
  have hinvalid : ¬ tcTickerCheckValidPeriod ticker period = true :=
    fun hv => h ((checkValidPeriod_representable ticker period).mp hv)
  rw [tcTickerUpdatePeriod, if_neg hinvalid]

/-- The compare register of the ticker's channel holds `count`; the other registers of the channel,
the other channels, the NVIC and the peripheral clocks are as they were. -/
structure OnlyCompare (ticker : TcTicker) (count : Nat) (s s' : Timers) : Prop where
  rc : (s'.channel ticker.tc ticker.tcChannel).rc.toNat = count
  channel : s'.channel ticker.tc ticker.tcChannel =
    { s.channel ticker.tc ticker.tcChannel with
      rc := (s'.channel ticker.tc ticker.tcChannel).rc }
  others : ∀ tc ch, ¬ (tc = ticker.tc ∧ ch = ticker.tcChannel) → s'.channel tc ch = s.channel tc ch
  nvicEnabled : s'.nvicEnabled = s.nvicEnabled
  nvicPending : s'.nvicPending = s.nvicPending
  nvicPriority : s'.nvicPriority = s.nvicPriority
  periphClock : s'.periphClock = s.periphClock

theorem onlyCompare_writeRc {ticker : TcTicker} {period : Word} (s : Timers)
    (h : Representable ticker period) :
    OnlyCompare ticker (exactCount ticker period) s
      (tcWriteRc ticker.tc ticker.tcChannel (BitVec.ofNat 32 (exactCount ticker period)) s) where
  rc := by
    rw [tcWriteRc, Timers.onChannel_same]
    exact h.count_toNat
  channel := by rw [tcWriteRc, Timers.onChannel_same]
  others tc ch hne := if_neg hne
  nvicEnabled := rfl
  nvicPending := rfl
  nvicPriority := rfl
  periphClock := rfl

/-- **Period changes.** The 64-bit count is the exact one; a period is accepted if and only if that
count is between 1 and `0xFFFF`; an accepted one becomes the recorded period and its count the
compare register, and nothing else changes; a refused one changes nothing; and the accepted periods
of a ticker form an interval. -/
theorem updatePeriod_all_or_nothing (ticker : TcTicker) (s : Timers) :
    (∀ period : Word,
      ((boardMck / ticker.tcDivisor).setWidth 64 * period.setWidth 64 / 1000#64).toNat =
        boardMck.toNat / ticker.tcDivisor.toNat * period.toNat / 1000) ∧
    (∀ period : Word, (tcTickerUpdatePeriod ticker period s).1 = .statusOk ↔
      1 ≤ boardMck.toNat / ticker.tcDivisor.toNat * period.toNat / 1000 ∧
        boardMck.toNat / ticker.tcDivisor.toNat * period.toNat / 1000 ≤ 0xFFFF) ∧
    (∀ period : Word, (tcTickerUpdatePeriod ticker period s).1 = .statusOk →
      (tcTickerUpdatePeriod ticker period s).2.1 = { ticker with tcPeriodInMs := period } ∧
        OnlyCompare ticker (boardMck.toNat / ticker.tcDivisor.toNat * period.toNat / 1000) s
          (tcTickerUpdatePeriod ticker period s).2.2) ∧
    (∀ period : Word, (tcTickerUpdatePeriod ticker period s).1 ≠ .statusOk →
      tcTickerUpdatePeriod ticker period s = (.errInvalidArg, ticker, s)) ∧
    (∀ p q r : Word, p ≤ q → q ≤ r → (tcTickerUpdatePeriod ticker p s).1 = .statusOk →
      (tcTickerUpdatePeriod ticker r s).1 = .statusOk →
      (tcTickerUpdatePeriod ticker q s).1 = .statusOk) := by
  have hstatus : ∀ period : Word, (tcTickerUpdatePeriod ticker period s).1 = .statusOk ↔
      Representable ticker period := by
    intro period
    by_cases h : Representable ticker period
    · simp [updatePeriod_accepted s h, h]
    · simp [updatePeriod_refused s h, h]
  refine ⟨count64_toNat ticker, hstatus, fun period h => ?_, fun period h => ?_, ?_⟩
  · have hr : Representable ticker period := (hstatus period).mp h
    rw [updatePeriod_accepted s hr]
    exact ⟨rfl, onlyCompare_writeRc s hr⟩
  · exact updatePeriod_refused s fun hr => h ((hstatus period).mpr hr)
  · intro p q r hpq hqr hp hr
    rw [hstatus] at hp hr ⊢
    exact representable_interval hpq hqr hp hr

/-- A ticker of 20 ms, on the timer and the clock of the telemetry ticker. -/
def ticker20ms : TcTicker := { telemetryTicker with tcPeriodInMs := 20#32 }

end CanNet
