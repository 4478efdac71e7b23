import CanNet.Period
import CanNet.Lib.Machine

/-!
# CanNet.Counter

The counter of a running ticker, clocked by the hardware while the program calls the ticker service.

A compare match can only happen while the counter has not passed the compare register.
`counter_below_compare_iff` says which calls of `tc_ticker_update_period` keep it so.
-/

namespace CanNet

open Bits

/-- One timer clock. With CPCTRG set a compare match restarts the 16-bit counter. -/
def TcChannel.clock (ch : TcChannel) : TcChannel :=
  if !ch.clockEnabled then ch
  else if has ch.cmr tcCmrCpctrg ∧ ch.cv = ch.rc then { ch with cv := 0#32 }
  else { ch with cv := (ch.cv + 1#32) &&& 0xFFFF#32 }

inductive CounterEvent where
  | timerClock
  | call (e : TickerEvent)
deriving DecidableEq

def counterStep (p : TcTicker × Timers) : CounterEvent → TcTicker × Timers
  | .timerClock => (p.1, p.2.onChannel p.1.tc p.1.tcChannel TcChannel.clock)
  | .call e => tickerStep p e

def counterMachine : Machine (TcTicker × Timers) CounterEvent where
  step p e := some (counterStep p e)

/-- The ticker's own channel. -/
def ownChannel (p : TcTicker × Timers) : TcChannel := p.2.channel p.1.tc p.1.tcChannel

/-- The counter has not passed the compare register. -/
def BelowCompare (p : TcTicker × Timers) : Prop := (ownChannel p).cv ≤ (ownChannel p).rc

/-- After `tc_ticker_init` and `tc_ticker_start`. -/
def started (ticker : TcTicker) (s : Timers) : TcTicker × Timers :=
  (ticker, tcTickerStart ticker (tcTickerInit ticker s))

/-- A new period, if it is representable, comes while the counter has not passed its count. -/
def InTime (p : TcTicker × Timers) (e : CounterEvent) : Prop :=
  ∀ period, e = .call (.updatePeriod period) → Representable p.1 period →
    (ownChannel p).cv.toNat ≤ exactCount p.1 period

/-! ## What a step does to the channel -/

inductive ChannelStep (p : TcTicker × Timers) (e : CounterEvent) (ch : TcChannel) : Prop
  | clocked (he : e = .timerClock) (hch : ch = (ownChannel p).clock)
  | kept (hcmr : ch.cmr = (ownChannel p).cmr) (hrc : ch.rc = (ownChannel p).rc)
      (hcv : ch.cv = 0#32 ∨ ch.cv = (ownChannel p).cv)
      (hno : ∀ period, e = .call (.updatePeriod period) → ¬ Representable p.1 period)
  | reprogrammed (period : Word) (he : e = .call (.updatePeriod period))
      (hr : Representable p.1 period) (hcmr : ch.cmr = (ownChannel p).cmr)
      (hrc : ch.rc.toNat = exactCount p.1 period) (hcv : ch.cv = (ownChannel p).cv)

/-- A write to `TC_CCR` leaves the counter or resets it. -/
theorem ChannelStep.of_writeCcr {p : TcTicker × Timers} {e : TickerEvent} (v : Word)
    (he : ∀ period, e ≠ .updatePeriod period) :
    ChannelStep p (.call e) ((ownChannel p).writeCcr v) := by
  refine .kept rfl rfl ?_ fun period h => ?_
  · unfold TcChannel.writeCcr
    split
    · exact .inl rfl
    · exact .inr rfl
  · cases h
    exact absurd rfl (he period)

theorem counterStep_channel (p : TcTicker × Timers) (e : CounterEvent) :
    ChannelStep p e (ownChannel (counterStep p e)) := by
  obtain ⟨ticker, s⟩ := p
  cases e with
  | timerClock => exact .clocked rfl (by simp [ownChannel, counterStep])
  | call e =>
    cases e with
    | start =>
      have h : ownChannel (counterStep (ticker, s) (.call .start)) =
          (ownChannel (ticker, s)).writeCcr (tcCcrClken ||| tcCcrSwtrg) := by
        simp [ownChannel, counterStep, tickerStep, tcTickerStart, tcStart]
      rw [h]
      exact .of_writeCcr _ fun _ h => by cases h
    | stop =>
      have h : ownChannel (counterStep (ticker, s) (.call .stop)) =
          (ownChannel (ticker, s)).writeCcr tcCcrClkdis := by
        simp [ownChannel, counterStep, tickerStep, tcTickerStop, tcStop]
      rw [h]
      exact .of_writeCcr _ fun _ h => by cases h
    | kick =>
      have h : ownChannel (counterStep (ticker, s) (.call .kick)) =
          (ownChannel (ticker, s)).writeCcr (tcCcrClken ||| tcCcrSwtrg) := by
        simp [ownChannel, counterStep, tickerStep, tcTickerKick, tcStart]
      rw [h]
      exact .of_writeCcr _ fun _ h => by cases h
    | enableIrq =>
      have h : ownChannel (counterStep (ticker, s) (.call .enableIrq)) = ownChannel (ticker, s) := by
        simp [ownChannel, counterStep, tickerStep, tcTickerEnableIrq]
      rw [h]
      exact .kept rfl rfl (.inr rfl) fun _ h => by cases h
    | disableIrq =>
      have h : ownChannel (counterStep (ticker, s) (.call .disableIrq)) = ownChannel (ticker, s) := by
        simp [ownChannel, counterStep, tickerStep, tcTickerDisableIrq]
      rw [h]
      exact .kept rfl rfl (.inr rfl) fun _ h => by cases h
    | updatePeriod period =>
      by_cases hr : Representable ticker period
      · have h : ownChannel (counterStep (ticker, s) (.call (.updatePeriod period))) =
            { ownChannel (ticker, s) with rc := BitVec.ofNat 32 (exactCount ticker period) } := by
          simp [ownChannel, counterStep, tickerStep, updatePeriod_accepted s hr, tcWriteRc]
        rw [h]
        exact .reprogrammed period rfl hr rfl hr.count_toNat rfl
      · have h : ownChannel (counterStep (ticker, s) (.call (.updatePeriod period))) =
            ownChannel (ticker, s) := by
          simp [ownChannel, counterStep, tickerStep, updatePeriod_refused s hr]
        rw [h]
        refine .kept rfl rfl (.inr rfl) fun q hq => ?_
        cases hq
        exact hr

/-! ## The counter stays below the compare register -/

/-- What the property rests on: CPCTRG is set and the compare register holds 16 bits. -/
structure Counting (p : TcTicker × Timers) : Prop where
  cpctrg : has (ownChannel p).cmr tcCmrCpctrg = true
  rc_le : (ownChannel p).rc ≤ 0xFFFF#32
  below : BelowCompare p

theorem maxCount_le (ticker : TcTicker) (period : Word) :
    tcTickerGetMaxCountForPeriod ticker period ≤ 0xFFFF#32 := by
  have h := maxCount_toNat ticker period
  rw [BitVec.le_def, h]
  split
  · assumption
  · exact Nat.zero_le _

/-- A clock step counts up to the compare register and restarts there. -/
theorem TcChannel.clock_spec {ch : TcChannel} (hc : has ch.cmr tcCmrCpctrg = true)
    (hrc : ch.rc ≤ 0xFFFF#32) (hcv : ch.cv ≤ ch.rc) :
    ch.clock.cmr = ch.cmr ∧ ch.clock.rc = ch.rc ∧ ch.clock.clockEnabled = ch.clockEnabled ∧
      ch.clock.cv.toNat = if ch.clockEnabled then
        if ch.cv = ch.rc then 0 else ch.cv.toNat + 1 else ch.cv.toNat := by
  unfold TcChannel.clock
  cases hen : ch.clockEnabled with
  | false => exact ⟨rfl, rfl, hen, rfl⟩
  | true =>
    by_cases heq : ch.cv = ch.rc
    · simp [hc, heq]
    · have hlt : ch.cv.toNat < ch.rc.toNat :=
        Nat.lt_of_le_of_ne (BitVec.le_def.mp hcv) fun h => heq (BitVec.eq_of_toNat_eq h)
      have h16 : ch.rc.toNat ≤ 0xFFFF := BitVec.le_def.mp hrc
      have hcount : ((ch.cv + 1#32) &&& 0xFFFF#32).toNat = ch.cv.toNat + 1 := by
        rw [BitVec.toNat_and, BitVec.toNat_add]
        show (ch.cv.toNat + 1) % 2 ^ 32 &&& (2 ^ 16 - 1) = ch.cv.toNat + 1
        rw [Nat.and_two_pow_sub_one_eq_mod]
        omega
      simp [heq, hcount]

/-- A step in time keeps the counter below the compare register. -/
theorem Counting.step {p p' : TcTicker × Timers} {e : CounterEvent} (h : Counting p)
    (hc : InTime p e) (hs : counterMachine.step p e = some p') : Counting p' := by
  obtain ⟨hcpctrg, hrc, hbelow⟩ := h
  cases hs
  cases counterStep_channel p e with
  | clocked he hch =>
    obtain ⟨hcmr', hrc', _, hcv'⟩ := TcChannel.clock_spec hcpctrg hrc hbelow
    refine ⟨by rw [hch, hcmr']; exact hcpctrg, by rw [hch, hrc']; exact hrc, ?_⟩
    rw [BelowCompare, hch, hrc', BitVec.le_def, hcv']
    have hle : (ownChannel p).cv.toNat ≤ (ownChannel p).rc.toNat := BitVec.le_def.mp hbelow
    split
    · split
      · exact Nat.zero_le _
      · rename_i hne
        have : (ownChannel p).cv.toNat ≠ (ownChannel p).rc.toNat :=
          fun heq => hne (BitVec.eq_of_toNat_eq heq)
        omega
    · exact hle
  | kept hcmr' hrc' hcv' _ =>
    refine ⟨by rw [hcmr']; exact hcpctrg, by rw [hrc']; exact hrc, ?_⟩
    rw [BelowCompare, hrc']
    rcases hcv' with hcv' | hcv' <;> rw [hcv']
    · exact BitVec.le_def.mpr (Nat.zero_le _)
    · exact hbelow
  | reprogrammed period he hr hcmr' hrc' hcv' =>
    refine ⟨by rw [hcmr']; exact hcpctrg, ?_, ?_⟩
    · rw [BitVec.le_def, hrc']
      exact hr.2
    · rw [BelowCompare, BitVec.le_def, hrc', hcv']
      exact hc period he hr

/-- A period whose count the counter has passed leaves it above the compare register. -/
theorem passed_compare {p p' : TcTicker × Timers} {e : CounterEvent} (hc : ¬ InTime p e)
    (hs : counterMachine.step p e = some p') : ¬ BelowCompare p' := by
  cases hs
  intro hbelow
  apply hc
  intro period he hr
  cases counterStep_channel p e with
  | clocked he' _ =>
    rw [he] at he'
    cases he'
  | kept _ _ _ hno =>
    exact absurd hr (hno period he)
  | reprogrammed q he' _ _ hrc' hcv' =>
    rw [he] at he'
    cases he'
    rwa [BelowCompare, BitVec.le_def, hrc', hcv'] at hbelow

theorem started_channel (ticker : TcTicker) (s : Timers) :
    (ownChannel (started ticker s)).cmr = ticker.tcClock ||| tcCmrCpctrg ∧
      (ownChannel (started ticker s)).rc = tcTickerGetMaxCount ticker ∧
      (ownChannel (started ticker s)).cv = 0#32 ∧
      (ownChannel (started ticker s)).clockEnabled = true := by
  have hstart : ownChannel (started ticker s) =
      (ownChannel (ticker, tcTickerInit ticker s)).writeCcr (tcCcrClken ||| tcCcrSwtrg) := by
    simp [started, ownChannel, tcTickerStart, tcStart]
  have hrun : has (tcCcrClken ||| tcCcrSwtrg) tcCcrClkdis = false ∧
      has (tcCcrClken ||| tcCcrSwtrg) tcCcrClken = true ∧
      has (tcCcrClken ||| tcCcrSwtrg) tcCcrSwtrg = true := by decide
  rw [hstart]
  refine ⟨?_, programmed_init ticker s, ?_, ?_⟩
  · simp [ownChannel, TcChannel.writeCcr, tcTickerInit, tcEnableInterrupt, tcWriteRc, tcInit]
  · simp [TcChannel.writeCcr, hrun]
  · simp [TcChannel.writeCcr, hrun]

theorem counting_started (ticker : TcTicker) (s : Timers) : Counting (started ticker s) := by
  obtain ⟨hcmr, hrc, hcv, _⟩ := started_channel ticker s
  refine ⟨?_, ?_, ?_⟩
  · rw [hcmr]
    exact has_or_self (by decide)
  · rw [hrc]
    exact maxCount_le ticker _
  · rw [BelowCompare, hcv]
    exact BitVec.le_def.mpr (Nat.zero_le _)

/-- **The running counter.** From `tc_ticker_init` and `tc_ticker_start`, the counter never passes
the compare register if and only if every representable period given to `tc_ticker_update_period`
comes while it has not passed that period's count. -/
theorem counter_below_compare_iff (ticker : TcTicker) (s : Timers) (es : List CounterEvent) :
    counterMachine.Always BelowCompare (started ticker s) es ↔
      counterMachine.EachStep InTime (started ticker s) es :=
  Machine.always_iff_eachStep (I := Counting) (fun _ h => h.below)
    (fun _ _ _ h hc hs => h.step hc hs) (fun _ _ _ _ hc hs => passed_compare hc hs)
    (counting_started ticker s)

/-! ## Counting up -/

/-- Up to the compare register every timer clock counts one. -/
theorem clock_run {n : Nat} : ∀ {p : TcTicker × Timers}, Counting p →
    (ownChannel p).clockEnabled = true → (ownChannel p).cv.toNat + n ≤ (ownChannel p).rc.toNat →
    ∃ p', counterMachine.run p (List.replicate n .timerClock) = some p' ∧ p'.1 = p.1 ∧
      (ownChannel p').cv.toNat = (ownChannel p).cv.toNat + n := by
  induction n with
  | zero => intro p _ _ _; exact ⟨p, rfl, rfl, rfl⟩
  | succ n ih =>
    intro p hp hen hle
    obtain ⟨_, hrc, hen', hcv⟩ := TcChannel.clock_spec hp.cpctrg hp.rc_le hp.below
    have hch : ownChannel (counterStep p .timerClock) = (ownChannel p).clock := by
      simp [ownChannel, counterStep]
    have hne : (ownChannel p).cv ≠ (ownChannel p).rc := by
      intro heq
      rw [heq] at hle
      omega
    rw [if_pos hen, if_neg hne] at hcv
    have hp' : Counting (counterStep p .timerClock) := hp.step (fun _ h => by cases h) rfl
    obtain ⟨p', hrun, hticker, hcount⟩ := ih hp' (by rw [hch, hen', hen])
      (by rw [hch, hcv, hrc]; omega)
    refine ⟨p', ?_, hticker, ?_⟩
    · rw [List.replicate_succ, Machine.run_cons_some rfl]
      exact hrun
    · rw [hcount, hch, hcv]
      omega

/-- A ticker of 20 ms is set to 10 ms after 30000 of its 46875 counts: the new count is 23437. -/
theorem counter_passes_compare :
    ¬ counterMachine.Always BelowCompare (started ticker20ms timersReset)
      (List.replicate 30000 .timerClock ++ [.call (.updatePeriod 10#32)]) := by
  intro h
  obtain ⟨_, hrc, hcv, hen⟩ := started_channel ticker20ms timersReset
  have h0 : (tcTickerGetMaxCount ticker20ms).toNat = 46875 := by decide
  obtain ⟨p, hrun, hticker, hcount⟩ := clock_run (n := 30000)
    (counting_started ticker20ms timersReset) hen (by rw [hcv, hrc, h0]; decide)
  have hlast : counterMachine.run (started ticker20ms timersReset)
      (List.replicate 30000 .timerClock ++ [.call (.updatePeriod 10#32)]) =
      some (counterStep p (.call (.updatePeriod 10#32))) := by
    rw [Machine.run_append, hrun]
    rfl
  refine passed_compare (p := p) (e := .call (.updatePeriod 10#32)) ?_ rfl
    (Machine.always_iff_prefix.mp h _ (List.prefix_refl _) _ hlast)
  intro hin
  have hticker' : p.1 = ticker20ms := hticker
  have h10 : exactCount ticker20ms 10#32 = 23437 := by decide
  have hle := hin 10#32 rfl (by rw [hticker', Representable, h10]; decide)
  rw [hticker', hcount, hcv, h10] at hle
  exact absurd hle (by decide)

end CanNet
