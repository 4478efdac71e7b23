import CanNet.Period
import Mathlib.Algebra.Order.Field.Rat
import Mathlib.Tactic.FieldSimp
import Mathlib.Tactic.Linarith
import Mathlib.Tactic.NormNum

/-!
# CanNet.Clock

The system clock of `sysclk.h` under the settings of `conf_clock.h`, and the time a programmed
compare register really stands for.

`tc.c` computes its counts from `BOARD_MCK`, the maximum processor clock. The timer channels are fed
by the peripheral clock, which `conf_clock.h` sets to half of that.
-/

namespace CanNet

open Bits

/-! ## `osc.h`, `pll.h` -/

inductive OscId where
  | slck32kRc
  | slck32kXtal
  | slck32kBypass
  | mainck4mRc
  | mainck8mRc
  | mainck12mRc
  | mainckXtal
  | mainckBypass
deriving DecidableEq

def oscGetRate : OscId → Word
  | .slck32kRc => 32000#32
  | .slck32kXtal => 32768#32
  | .slck32kBypass => 32768#32
  | .mainck4mRc => 4000000#32
  | .mainck8mRc => 8000000#32
  | .mainck12mRc => 12000000#32
  | .mainckXtal => 12000000#32
  | .mainckBypass => 12000000#32

def pllUpllHz : Word := 480000000#32

/-! ## `sysclk.h` -/

inductive SysclkSrc where
  | osc (id : OscId)
  | pllack
  | upllck
deriving DecidableEq

def sysclkPres1 : Word := 0#32 <<< 4
def sysclkPres3 : Word := 7#32 <<< 4

/-- The settings of `conf_clock.h` that reach the clock queries. -/
structure ConfClock where
  sysclkSource : SysclkSrc
  sysclkPres : Word
  sysclkDiv : Word
  pll0Source : OscId
  pll0Mul : Word
  pll0Div : Word

def confClock : ConfClock where
  sysclkSource := .pllack
  sysclkPres := sysclkPres1
  sysclkDiv := 2#32
  pll0Source := .mainckXtal
  pll0Mul := 25#32
  pll0Div := 1#32

def pllGetDefaultRate (conf : ConfClock) : Word :=
  oscGetRate conf.pll0Source * conf.pll0Mul / conf.pll0Div

def sysclkGetMainHz (conf : ConfClock) : Word :=
  match conf.sysclkSource with
  | .osc id => oscGetRate id
  | .pllack => pllGetDefaultRate conf
  | .upllck => pllUpllHz

def sysclkGetPeripheralHz (conf : ConfClock) : Word :=
  sysclkGetMainHz conf /
    ((if conf.sysclkPres = sysclkPres3 then 3#32 else 1#32 <<< (conf.sysclkPres >>> 4)) *
      conf.sysclkDiv)

theorem peripheralHz_confClock : (sysclkGetPeripheralHz confClock).toNat = 150000000 := rfl

/-! ## What the channel counts -/

/-- The divisor of the clock that TCCLKS selects, for the selections that divide the peripheral
clock. -/
def timerClockDivisor (tcclks : BitVec 3) : Option Nat :=
  if tcclks = 1#3 then some 8
  else if tcclks = 2#3 then some 32
  else if tcclks = 3#3 then some 128
  else none

/-- The frequency at which the ticker's channel counts. -/
def timerHz (ticker : TcTicker) : ℚ :=
  (sysclkGetPeripheralHz confClock).toNat / ticker.tcDivisor.toNat

/-- `count` timer counts differ from `period` milliseconds by less than one count. -/
def KeepsPeriod (ticker : TcTicker) (count period : Word) : Prop :=
  |count.toNat / timerHz ticker - period.toNat / 1000| < 1 / timerHz ticker

theorem timerClockDivisor_some {tcclks : BitVec 3} {d : Nat}
    (h : timerClockDivisor tcclks = some d) : d = 8 ∨ d = 32 ∨ d = 128 := by
  unfold timerClockDivisor at h
  split at h
  · cases h
    exact .inl rfl
  split at h
  · cases h
    exact .inr (.inl rfl)
  split at h
  · cases h
    exact .inr (.inr rfl)
  · cases h

/-- The exact count is about twice what the period takes: in units of a thousandth of a tick of the
peripheral clock it exceeds the period by at least one count. -/
theorem exactCount_exceeds {ticker : TcTicker} {period : Word}
    (hd : ticker.tcDivisor.toNat = 8 ∨ ticker.tcDivisor.toNat = 32 ∨ ticker.tcDivisor.toNat = 128)
    (h : Representable ticker period) :
    150000000 * period.toNat + 1000 * ticker.tcDivisor.toNat ≤
      1000 * (exactCount ticker period * ticker.tcDivisor.toNat) := by
  have hpos : 1 ≤ exactCount ticker period := h.1
  have hmck : boardMck.toNat = 300000000 := rfl
  unfold exactCount at hpos ⊢
  rw [hmck] at hpos ⊢
  rcases hd with hd | hd | hd <;> rw [hd] at hpos ⊢ <;> omega

theorem not_keepsPeriod {ticker : TcTicker} {count period : Word}
    (h : 150000000 * period.toNat + 1000 * ticker.tcDivisor.toNat ≤
      1000 * (count.toNat * ticker.tcDivisor.toNat)) : ¬ KeepsPeriod ticker count period := by
  intro hkeep
  have hhigh := (abs_lt.mp hkeep).2
  have hhz : timerHz ticker = 150000000 / ticker.tcDivisor.toNat := by
    rw [timerHz, peripheralHz_confClock]
    norm_num
  rw [hhz, div_div_eq_mul_div, one_div_div] at hhigh
  have hcast : (150000000 * period.toNat + 1000 * ticker.tcDivisor.toNat : ℚ) ≤
      1000 * (count.toNat * ticker.tcDivisor.toNat) := by exact_mod_cast h
  linarith

/-- **The real period.** With a divisor that matches the selected clock, the count that
`tc_ticker_init` or `tc_ticker_update_period` programs for an accepted period never stands for that
period. -/
theorem period_never_kept {ticker : TcTicker}
    (hclk : timerClockDivisor (field 0 3 ticker.tcClock) = some ticker.tcDivisor.toNat)
    (s : Timers) :
    (tcTickerCheckValidPeriod ticker ticker.tcPeriodInMs = true →
      ¬ KeepsPeriod ticker (compareRegister (ticker, tcTickerInit ticker s))
        ticker.tcPeriodInMs) ∧
    ∀ period : Word, tcTickerCheckValidPeriod ticker period = true →
      ¬ KeepsPeriod ticker (compareRegister (tcTickerUpdatePeriod ticker period s).2) period := by
  have hd := timerClockDivisor_some hclk
  have hcount : ∀ period : Word, tcTickerCheckValidPeriod ticker period = true →
      ¬ KeepsPeriod ticker (tcTickerGetMaxCountForPeriod ticker period) period := by
    intro period hv
    have hr := (checkValidPeriod_representable ticker period).mp hv
    have hle : exactCount ticker period ≤ 0xFFFF := hr.2
    apply not_keepsPeriod
    rw [maxCount_toNat, if_pos hle]
    exact exactCount_exceeds hd hr
  refine ⟨fun hv => ?_, fun period hv => ?_⟩
  · have hrc : compareRegister (ticker, tcTickerInit ticker s) = tcTickerGetMaxCount ticker :=
      programmed_init ticker s
    rw [hrc]
    exact hcount _ hv
  · have hr := (checkValidPeriod_representable ticker period).mp hv
    have hrc : compareRegister (tcTickerUpdatePeriod ticker period s).2 =
        tcTickerGetMaxCountForPeriod ticker period := by
      rw [updatePeriod_accepted s hr, maxCount_eq hr]
      simp [compareRegister, tcWriteRc]
    rw [hrc]
    exact hcount period hv

theorem period_never_kept_20ms :
    ¬ KeepsPeriod ticker20ms (compareRegister (ticker20ms, tcTickerInit ticker20ms timersReset))
      20#32 :=
  have hclk : timerClockDivisor (field 0 3 ticker20ms.tcClock) = some ticker20ms.tcDivisor.toNat := by
    decide
  (period_never_kept hclk timersReset).1 (by decide)

/-- Its compare register holds 46875, which the channel takes 40 ms to count. -/
theorem period_20ms_takes_40ms :
    compareRegister (ticker20ms, tcTickerInit ticker20ms timersReset) = 46875#32 ∧
      ¬ KeepsPeriod ticker20ms (compareRegister (ticker20ms, tcTickerInit ticker20ms timersReset))
        20#32 := by
  have hrc : compareRegister (ticker20ms, tcTickerInit ticker20ms timersReset) = 46875#32 := by
    decide
  refine ⟨hrc, ?_⟩
  rw [hrc]
  exact not_keepsPeriod (by decide)

end CanNet
