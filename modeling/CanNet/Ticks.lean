import CanNet.Counter

/-!
# CanNet.Ticks

How many ticks a running ticker gives.

`TickLedger` keeps account of the timer clocks a channel counts: those that make up a tick, those
the counter needs to come round after it has passed the compare register, and those a software
trigger throws away. `ticks_account` says that the account balances along every run, and what it
comes to while the period stays.
-/

namespace CanNet

open Bits

structure TickLedger where
  counted : Nat
  ticks : Nat
  inTicks : Nat
  overruns : Nat
  dropped : Nat

/-- `TC_CCR` is written with SWTRG. -/
def TickerEvent.triggers : TickerEvent → Bool
  | .start | .kick => true
  | .stop | .enableIrq | .disableIrq | .updatePeriod _ => false

/-- One timer clock on the ledger, before the channel takes it. -/
def TickLedger.clock (l : TickLedger) (ch : TcChannel) : TickLedger :=
  if !ch.clockEnabled then l
  else if has ch.cmr tcCmrCpctrg ∧ ch.cv = ch.rc then
    { l with counted := l.counted + 1, ticks := l.ticks + 1
             inTicks := l.inTicks + (ch.rc.toNat + 1) }
  else if ch.cv = 0xFFFF#32 then
    { l with counted := l.counted + 1, overruns := l.overruns + 1 }
  else { l with counted := l.counted + 1 }

def recordTicks (l : TickLedger) (p : TcTicker × Timers) : CounterEvent → TickLedger
  | .timerClock => l.clock (ownChannel p)
  | .call e => if e.triggers then { l with dropped := l.dropped + (ownChannel p).cv.toNat } else l

def TickLedger.empty : TickLedger where
  counted := 0
  ticks := 0
  inTicks := 0
  overruns := 0
  dropped := 0

def tickMachine : Machine ((TcTicker × Timers) × TickLedger) CounterEvent :=
  counterMachine.withHistory recordTicks

/-! ## The account -/

/-- Every clock counted is in a tick, in an overrun, thrown away or in the counter. -/
structure Balanced (p : TcTicker × Timers) (l : TickLedger) : Prop where
  counter16 : (ownChannel p).cv.toNat ≤ 0xFFFF
  counted : l.counted = l.inTicks + 65536 * l.overruns + l.dropped + (ownChannel p).cv.toNat

theorem call_cv (p : TcTicker × Timers) (e : TickerEvent) :
    (ownChannel (counterStep p (.call e))).cv =
      if e.triggers then 0#32 else (ownChannel p).cv := by
  obtain ⟨ticker, s⟩ := p
  have htrg : has (tcCcrClken ||| tcCcrSwtrg) tcCcrSwtrg = true := by decide
  have hdis : has tcCcrClkdis tcCcrSwtrg = false := by decide
  cases e with
  | start =>
    simp [ownChannel, counterStep, tickerStep, tcTickerStart, tcStart, TcChannel.writeCcr,
      TickerEvent.triggers, htrg]
  | stop =>
    simp [ownChannel, counterStep, tickerStep, tcTickerStop, tcStop, TcChannel.writeCcr,
      TickerEvent.triggers, hdis]
  | kick =>
    simp [ownChannel, counterStep, tickerStep, tcTickerKick, tcStart, TcChannel.writeCcr,
      TickerEvent.triggers, htrg]
  | enableIrq =>
    simp [ownChannel, counterStep, tickerStep, tcTickerEnableIrq, TickerEvent.triggers]
  | disableIrq =>
    simp [ownChannel, counterStep, tickerStep, tcTickerDisableIrq, TickerEvent.triggers]
  | updatePeriod period =>
    by_cases hr : Representable ticker period
    · simp [ownChannel, counterStep, tickerStep, updatePeriod_accepted s hr, tcWriteRc,
        TickerEvent.triggers]
    · simp [ownChannel, counterStep, tickerStep, updatePeriod_refused s hr, TickerEvent.triggers]

theorem clock_channel (p : TcTicker × Timers) :
    ownChannel (counterStep p .timerClock) = (ownChannel p).clock := by
  simp [ownChannel, counterStep]

/-- The counter counts up, comes round at a compare match, or at its last value. -/
theorem TcChannel.clock_cv {ch : TcChannel} (hen : ch.clockEnabled = true)
    (h16 : ch.cv.toNat ≤ 0xFFFF) : ch.clock.cv.toNat =
      if has ch.cmr tcCmrCpctrg ∧ ch.cv = ch.rc then 0
      else if ch.cv = 0xFFFF#32 then 0 else ch.cv.toNat + 1 := by
  unfold TcChannel.clock
  rw [hen]
  simp only [Bool.not_true, Bool.false_eq_true, if_false]
  split
  · rfl
  · have hcount : ((ch.cv + 1#32) &&& 0xFFFF#32).toNat = (ch.cv.toNat + 1) % 2 ^ 16 := by
      rw [BitVec.toNat_and, BitVec.toNat_add]
      show (ch.cv.toNat + 1) % 2 ^ 32 &&& (2 ^ 16 - 1) = (ch.cv.toNat + 1) % 2 ^ 16
      rw [Nat.and_two_pow_sub_one_eq_mod]
      omega
    split
    · rename_i hlast
      simp [hlast]
    · rename_i hlast
      have hne : ch.cv.toNat ≠ 0xFFFF := fun h => hlast (BitVec.eq_of_toNat_eq h)
      rw [hcount]
      omega

theorem Balanced.step {p : TcTicker × Timers} {l : TickLedger} (h : Balanced p l)
    (e : CounterEvent) : Balanced (counterStep p e) (recordTicks l p e) := by
  obtain ⟨h16, hcounted⟩ := h
  cases e with
  | call e =>
    have hcv := call_cv p e
    show Balanced _ (if e.triggers = true then _ else l)
    by_cases htrg : e.triggers = true
    · rw [if_pos htrg] at hcv
      rw [if_pos htrg]
      refine ⟨by rw [hcv]; exact Nat.zero_le _, ?_⟩
      rw [hcv]
      exact hcounted.trans (Nat.add_assoc _ _ _)
    · rw [if_neg htrg] at hcv
      rw [if_neg htrg]
      exact ⟨by rw [hcv]; exact h16, by rw [hcv]; exact hcounted⟩
  | timerClock =>
    have hch := clock_channel p
    show Balanced _ (l.clock (ownChannel p))
    cases hen : (ownChannel p).clockEnabled with
    | false =>
      have hkept : (ownChannel p).clock = ownChannel p := by
        unfold TcChannel.clock
        simp [hen]
      have hsame : l.clock (ownChannel p) = l := by
        unfold TickLedger.clock
        simp [hen]
      rw [hkept] at hch
      rw [hsame]
      exact ⟨by rw [hch]; exact h16, by rw [hch]; exact hcounted⟩
    | true =>
      have hcv := TcChannel.clock_cv hen h16
      unfold TickLedger.clock
      simp only [hen, Bool.not_true, Bool.false_eq_true, if_false]
      split
      · rename_i hmatch
        rw [if_pos hmatch] at hcv
        refine ⟨by rw [hch, hcv]; exact Nat.zero_le _, ?_⟩
        rw [hch, hcv, ← hmatch.2]
        simp only
        omega
      · rename_i hno
        rw [if_neg hno] at hcv
        split
        · rename_i hlast
          rw [if_pos hlast] at hcv
          have h65535 : (ownChannel p).cv.toNat = 65535 := by rw [hlast]; rfl
          refine ⟨by rw [hch, hcv]; exact Nat.zero_le _, ?_⟩
          rw [hch, hcv]
          simp only
          omega
        · rename_i hlast
          rw [if_neg hlast] at hcv
          have hne : (ownChannel p).cv.toNat ≠ 65535 := fun h => hlast (BitVec.eq_of_toNat_eq h)
          refine ⟨by rw [hch, hcv]; omega, ?_⟩
          rw [hch, hcv]
          simp only
          omega

theorem balanced_run (es : List CounterEvent) : ∀ {q q' : (TcTicker × Timers) × TickLedger},
    Balanced q.1 q.2 → tickMachine.run q es = some q' → Balanced q'.1 q'.2 := by
  induction es with
  | nil =>
    intro q q' h hr
    cases hr
    exact h
  | cons e es ih =>
    intro q q' h hr
    exact ih (h.step e) hr

/-! ## Overruns -/

/-- Below the compare register the counter comes round at a compare match only. -/
theorem clock_overruns {p : TcTicker × Timers} (h : Counting p) (l : TickLedger) :
    (l.clock (ownChannel p)).overruns = l.overruns := by
  unfold TickLedger.clock
  split
  · rfl
  split
  · rfl
  split
  · rename_i hno hlast
    have hle : (ownChannel p).cv.toNat ≤ (ownChannel p).rc.toNat := BitVec.le_def.mp h.below
    have h16 : (ownChannel p).rc.toNat ≤ 65535 := BitVec.le_def.mp h.rc_le
    have h65535 : (ownChannel p).cv.toNat = 65535 := by rw [hlast]; rfl
    have hmatch : (ownChannel p).cv = (ownChannel p).rc := BitVec.eq_of_toNat_eq (by omega)
    exact absurd ⟨h.cpctrg, hmatch⟩ hno
  · rfl

theorem call_overruns (l : TickLedger) (p : TcTicker × Timers) (e : TickerEvent) :
    (recordTicks l p (.call e)).overruns = l.overruns := by
  show (if e.triggers = true then _ else l).overruns = _
  split <;> rfl

theorem recordTicks_overruns {p : TcTicker × Timers} (h : Counting p) (l : TickLedger)
    (e : CounterEvent) : (recordTicks l p e).overruns = l.overruns := by
  cases e with
  | timerClock => exact clock_overruns h l
  | call e => exact call_overruns l p e

theorem overruns_run (es : List CounterEvent) : ∀ {q q' : (TcTicker × Timers) × TickLedger},
    Counting q.1 → counterMachine.EachStep InTime q.1 es → tickMachine.run q es = some q' →
      q'.2.overruns = q.2.overruns := by
  induction es with
  | nil =>
    intro q q' _ _ hr
    cases hr
    rfl
  | cons e es ih =>
    intro q q' h hin hr
    obtain ⟨hnow, hrest⟩ := hin (counterStep q.1 e) rfl
    rw [← recordTicks_overruns h q.2 e]
    exact ih (h.step hnow rfl) hrest hr

/-! ## Ticks of one period -/

/-- No period that the event asks for is taken. -/
def KeepsCompare (ticker : TcTicker) (e : CounterEvent) : Prop :=
  ∀ period, e = .call (.updatePeriod period) → ¬ Representable ticker period

/-- The compare register is as the ticker has it, and every tick took that many clocks and one. -/
structure OnePeriod (ticker : TcTicker) (q : (TcTicker × Timers) × TickLedger) : Prop where
  record : q.1.1 = ticker
  compare : (ownChannel q.1).rc = tcTickerGetMaxCount ticker
  inTicks : q.2.inTicks = q.2.ticks * ((tcTickerGetMaxCount ticker).toNat + 1)

theorem TcChannel.clock_rc (ch : TcChannel) : ch.clock.rc = ch.rc := by
  unfold TcChannel.clock
  split
  · rfl
  split <;> rfl

theorem counterStep_kept {p : TcTicker × Timers} {e : CounterEvent} (h : KeepsCompare p.1 e) :
    (counterStep p e).1 = p.1 ∧ (ownChannel (counterStep p e)).rc = (ownChannel p).rc := by
  cases e with
  | timerClock =>
    refine ⟨rfl, ?_⟩
    rw [clock_channel, TcChannel.clock_rc]
  | call e =>
    rcases tickerStep_cases p e with ⟨hticker, hrc, _⟩ | ⟨period, rfl, hvalid, _⟩
    · exact ⟨hticker, hrc⟩
    · exact absurd ((checkValidPeriod_representable p.1 period).mp hvalid) (h period rfl)

theorem OnePeriod.step {ticker : TcTicker} {q : (TcTicker × Timers) × TickLedger}
    (h : OnePeriod ticker q) {e : CounterEvent} (he : KeepsCompare ticker e) :
    OnePeriod ticker (counterStep q.1 e, recordTicks q.2 q.1 e) := by
  obtain ⟨hrecord, hcompare, hticks⟩ := h
  rw [← hrecord] at he
  obtain ⟨hsame, hrc⟩ := counterStep_kept he
  refine ⟨hsame.trans hrecord, hrc.trans hcompare, ?_⟩
  cases e with
  | call e =>
    show (if e.triggers = true then _ else q.2).inTicks =
      (if e.triggers = true then _ else q.2).ticks * _
    split <;> exact hticks
  | timerClock =>
    show (q.2.clock (ownChannel q.1)).inTicks = (q.2.clock (ownChannel q.1)).ticks * _
    unfold TickLedger.clock
    split
    · exact hticks
    split
    · simp only
      rw [hticks, hcompare, Nat.add_mul, Nat.one_mul]
    split <;> exact hticks

theorem keepsCompare_inTime {p : TcTicker × Timers} {e : CounterEvent} (h : KeepsCompare p.1 e) :
    InTime p e := fun period he hr => absurd hr (h period he)

/-- As long as the period stays there is no overrun, and every tick takes as long as the others. -/
theorem onePeriod_run {ticker : TcTicker} (es : List CounterEvent)
    (hes : ∀ e ∈ es, KeepsCompare ticker e) : ∀ {q q' : (TcTicker × Timers) × TickLedger},
      OnePeriod ticker q → Counting q.1 → tickMachine.run q es = some q' →
        OnePeriod ticker q' ∧ Counting q'.1 ∧ q'.2.overruns = q.2.overruns := by
  induction es with
  | nil =>
    intro q q' h hcount hr
    cases hr
    exact ⟨h, hcount, rfl⟩
  | cons e es ih =>
    intro q q' h hcount hr
    have he : KeepsCompare ticker e := hes e List.mem_cons_self
    have hin : InTime q.1 e := keepsCompare_inTime (h.record.symm ▸ he)
    obtain ⟨h', hcount', hover⟩ := ih (fun e' he' => hes e' (List.mem_cons_of_mem e he'))
      (h.step he) (hcount.step hin rfl) hr
    exact ⟨h', hcount', hover.trans (recordTicks_overruns hcount q.2 e)⟩

theorem started_balanced (ticker : TcTicker) (s : Timers) :
    Balanced (started ticker s) TickLedger.empty := by
  obtain ⟨_, _, hcv, _⟩ := started_channel ticker s
  exact ⟨by rw [hcv]; exact Nat.zero_le _, by rw [hcv]; rfl⟩

/-- **Tick account.** Along every run of timer clocks and calls, every clock a started ticker counts
is in a tick of compare register and one clocks, in an overrun of 65536, thrown away by a software
trigger, or still in the counter. There is no overrun if every accepted period comes in time; and
where none is accepted at all, the ticks are the quotient, and the counter the remainder, of the
clocks not thrown away by the count and one. -/
theorem ticks_account (ticker : TcTicker) (s : Timers) (es : List CounterEvent)
    {p : TcTicker × Timers} {l : TickLedger}
    (h : tickMachine.run (started ticker s, .empty) es = some (p, l)) :
    l.counted = l.inTicks + 65536 * l.overruns + l.dropped + (ownChannel p).cv.toNat ∧
      (counterMachine.EachStep InTime (started ticker s) es → l.overruns = 0) ∧
      ((∀ e ∈ es, KeepsCompare ticker e) →
        l.ticks = (l.counted - l.dropped) / ((tcTickerGetMaxCount ticker).toNat + 1) ∧
          (ownChannel p).cv.toNat =
            (l.counted - l.dropped) % ((tcTickerGetMaxCount ticker).toNat + 1)) := by
  have hbalance := balanced_run es (started_balanced ticker s) h
  have hcounting := counting_started ticker s
  refine ⟨hbalance.counted, fun hin => overruns_run es hcounting hin h, fun hkeep => ?_⟩
  obtain ⟨_, hrc, _, _⟩ := started_channel ticker s
  have hfirst : OnePeriod ticker (started ticker s, TickLedger.empty) := by
    refine ⟨rfl, hrc, ?_⟩
    simp [TickLedger.empty]
  obtain ⟨hperiod, hcount, hover⟩ := onePeriod_run es hkeep hfirst hcounting h
  have hbelow : (ownChannel p).cv.toNat < (tcTickerGetMaxCount ticker).toNat + 1 := by
    have hle : (ownChannel p).cv.toNat ≤ (ownChannel p).rc.toNat := BitVec.le_def.mp hcount.below
    rw [hperiod.compare] at hle
    exact Nat.lt_succ_of_le hle
  have hnone : l.overruns = 0 := hover
  have hsplit : l.counted - l.dropped = (ownChannel p).cv.toNat +
      ((tcTickerGetMaxCount ticker).toNat + 1) * l.ticks := by
    have hcounted := hbalance.counted
    rw [hperiod.inTicks, hnone, Nat.mul_comm l.ticks] at hcounted
    simp only at hcounted
    omega
  rw [hsplit, Nat.add_mul_div_left _ _ (Nat.succ_pos _), Nat.add_mul_mod_self_left,
    Nat.div_eq_of_lt hbelow, Nat.mod_eq_of_lt hbelow, Nat.zero_add]
  exact ⟨rfl, rfl⟩

/-- A ticker of one millisecond on the slow clock, whose count is 32. -/
def slowTicker : TcTicker := { telemetryTicker with tcDivisor := 9155#32, tcPeriodInMs := 1#32 }

/-- A kick after 20 clocks, and 40 more. -/
def kickRun : List CounterEvent :=
  List.replicate 20 .timerClock ++ .call .kick :: List.replicate 40 .timerClock

/-- The kick throws 20 clocks away; of the 40 after it 33 make a tick. -/
theorem ticks_account_kick :
    ∃ q, tickMachine.run (started slowTicker timersReset, .empty) kickRun = some q ∧
      q.2.ticks = 1 ∧ (ownChannel q.1).cv.toNat = 7 := by
  have hledger : (tickMachine.run (started slowTicker timersReset, .empty) kickRun).map
      (fun q => (q.2.counted, q.2.dropped)) = some (60, 20) := by decide +kernel
  obtain ⟨⟨p, l⟩, hrun, hl⟩ := Option.map_eq_some_iff.mp hledger
  obtain ⟨hcounted, hdropped⟩ := Prod.mk.inj hl
  have hkeep : ∀ e ∈ kickRun, KeepsCompare slowTicker e := by
    intro e he period hp
    rw [hp] at he
    simp [kickRun] at he
  have hcount : (tcTickerGetMaxCount slowTicker).toNat = 32 := by decide
  obtain ⟨hticks, hcv⟩ := (ticks_account slowTicker timersReset kickRun hrun).2.2 hkeep
  simp only at hcounted hdropped
  rw [hcounted, hdropped, hcount] at hticks hcv
  exact ⟨(p, l), hrun, hticks, hcv⟩

end CanNet
