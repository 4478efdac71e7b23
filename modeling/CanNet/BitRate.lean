import CanNet.ClockTree
import CanNet.Node
import CanNet.Lib.Registers

/-!
# CanNet.BitRate

The bit timing registers of the controller, the bit rates they stand for, and the functions that set
them: `mcan_init` from the constants of `conf_mcan.h`, `mcan_set_baudrate` and
`mcan_fd_set_baudrate` from the rate that `genclk_get_frequency_hz` reports of PCK5.

`setBaudrate_iff` says when the two functions give the rate they are asked for, and `canInit_rates`
which rates the node has after `can_init`: those of the constants, whatever the report was.
-/

namespace CanNet

open Bits

/-! ## The registers -/

def mcanNbtpNbrp := placed 0x1FF#32 16
def mcanNbtpNsjw := placed 0x7F#32 25
def mcanNbtpNtseg1 := placed 0xFF#32 8
def mcanNbtpNtseg2 := placed 0x7F#32 0
def mcanDbtpDbrp := placed 0x1F#32 16
def mcanDbtpDsjw := placed 0x7#32 0
def mcanDbtpDtseg1 := placed 0x1F#32 8
def mcanDbtpDtseg2 := placed 0xF#32 4
def mcanDbtpTdcEnabled : Word := 1#32 <<< 23

structure BitTiming where
  nbtp : Word
  dbtp : Word
deriving DecidableEq

/-- Both registers are write-protected as `Mcan.configure` has it. -/
def BitTiming.configure (m : Mcan) (f : BitTiming → BitTiming) (t : BitTiming) : BitTiming :=
  if m.initBit && m.cceBit then f t else t

/-! ## `mcan.c` -/

def pmcPck5 : Nat := 5

def mcanSetBaudrate (baudrate : Word) (p : Pmc) (m : Mcan) : BitTiming → BitTiming :=
  let gclkMcanValue := genclkGetFrequencyHz pmcPck5 p
  let mcanNbtpNbrpValue := gclkMcanValue / baudrate / (3#32 + 10#32 + 7#32)
  BitTiming.configure m fun t => { t with
    nbtp := mcanNbtpNbrp (mcanNbtpNbrpValue - 1#32) ||| mcanNbtpNsjw 3#32 |||
      mcanNbtpNtseg1 10#32 ||| mcanNbtpNtseg2 7#32 }

def mcanFdSetBaudrate (baudrate : Word) (p : Pmc) (m : Mcan) : BitTiming → BitTiming :=
  let gclkMcanFdValue := genclkGetFrequencyHz pmcPck5 p
  let mcanFdDbtpDbrpValue := gclkMcanFdValue / baudrate / (3#32 + 9#32 + 3#32)
  BitTiming.configure m fun t => { t with
    dbtp := mcanDbtpDbrp (mcanFdDbtpDbrpValue - 1#32) ||| mcanDbtpDsjw 3#32 |||
      mcanDbtpDtseg1 9#32 ||| mcanDbtpDtseg2 3#32 }

def confMcanNbtpNbrpValue : Word := 2#32
def confMcanNbtpNsjwValue : Word := 3#32
def confMcanNbtpNtseg1Value : Word := 10#32
def confMcanNbtpNtseg2Value : Word := 7#32
def confMcanFbtpFbrpValue : Word := 0#32
def confMcanFbtpFsjwValue : Word := 3#32
def confMcanFbtpFtseg1Value : Word := 9#32
def confMcanFbtpFtseg2Value : Word := 3#32

/-- What `_mcan_set_configuration` writes. -/
def confTiming (tdcEnable : Bool) : BitTiming :=
  let dbtp := mcanDbtpDbrp confMcanFbtpFbrpValue ||| mcanDbtpDsjw confMcanFbtpFsjwValue |||
    mcanDbtpDtseg1 confMcanFbtpFtseg1Value ||| mcanDbtpDtseg2 confMcanFbtpFtseg2Value
  { nbtp := mcanNbtpNbrp confMcanNbtpNbrpValue ||| mcanNbtpNsjw confMcanNbtpNsjwValue |||
      mcanNbtpNtseg1 confMcanNbtpNtseg1Value ||| mcanNbtpNtseg2 confMcanNbtpNtseg2Value
    dbtp := if tdcEnable then dbtp ||| mcanDbtpTdcEnabled else dbtp }

/-- The timing part of `_mcan_set_configuration`. -/
def mcanSetConfigurationTiming (tdcEnable : Bool) (m : Mcan) : BitTiming → BitTiming :=
  BitTiming.configure m fun _ => confTiming tdcEnable

/-- The clock part of `mcan_init`. -/
def mcanInitPck (p : Pmc) : Pmc := pmcSwitchPckToPllack pmcPck5 (pmcPckPres 9#32) p

/-- The timing part of `mcan_init`, with the controller as `Mcan.writeCccr` leaves it. -/
def mcanInitTiming (tdcEnable : Bool) (m : Mcan) : BitTiming → BitTiming :=
  mcanSetConfigurationTiming tdcEnable (m.writeCccr (m.cccr ||| mcanCccrCce))

/-- `sysclk_init` with the PLL as the source of the system clock, up to what the master clock is
divided by. -/
def sysclkInit (p : Pmc) : Pmc :=
  pllEnable (pllConfigInit confClock.pll0Div confClock.pll0Mul) (oscEnable confClock.pll0Source p)

/-! ## The rates

A bit has one time quantum for synchronisation and two segments; the prescaler and the segments are
one more than the register says. -/

namespace BitTiming

def nominalPrescaler (t : BitTiming) : Nat := fieldOf 0x1FF#32 16 t.nbtp + 1
def nominalQuanta (t : BitTiming) : Nat :=
  1 + (fieldOf 0xFF#32 8 t.nbtp + 1) + (fieldOf 0x7F#32 0 t.nbtp + 1)
def dataPrescaler (t : BitTiming) : Nat := fieldOf 0x1F#32 16 t.dbtp + 1
def dataQuanta (t : BitTiming) : Nat :=
  1 + (fieldOf 0x1F#32 8 t.dbtp + 1) + (fieldOf 0xF#32 4 t.dbtp + 1)

def nominalRate (p : Pmc) (t : BitTiming) : ℚ :=
  p.pckHz pmcPck5 / (t.nominalPrescaler * t.nominalQuanta : ℕ)
def dataRate (p : Pmc) (t : BitTiming) : ℚ :=
  p.pckHz pmcPck5 / (t.dataPrescaler * t.dataQuanta : ℕ)

end BitTiming

/-! ## Prescalers -/

theorem brp_word {w mask : Word} {n : Nat} (hmask : mask.toNat = 2 ^ n - 1) (hn : n ≤ 32) :
    ((w - 1#32) &&& mask).toNat + 1 =
      if w.toNat = 0 then 2 ^ n else (w.toNat - 1) % 2 ^ n + 1 := by
  have hpos : 0 < 2 ^ n := Nat.two_pow_pos n
  have hdvd : 2 ^ n ∣ 2 ^ 32 := Nat.pow_dvd_pow 2 hn
  have hw := w.isLt
  rw [BitVec.toNat_and, hmask, Nat.and_two_pow_sub_one_eq_mod, BitVec.toNat_sub,
    Nat.mod_mod_of_dvd _ hdvd]
  split
  · rename_i h
    obtain ⟨q, hq⟩ := hdvd
    have hlast : 2 ^ 32 - 1 = 2 ^ n - 1 + 2 ^ n * (q - 1) := by
      have hq1 : 1 ≤ q := by
        rcases Nat.eq_zero_or_pos q with h0 | h0
        · rw [h0] at hq
          omega
        · exact h0
      rw [hq, Nat.mul_sub_one]
      have := Nat.le_mul_of_pos_right (2 ^ n) hq1
      omega
    have hone : (1#32).toNat = 1 := rfl
    have hsum : 2 ^ 32 - (1#32).toNat + w.toNat = 2 ^ n - 1 + 2 ^ n * (q - 1) := by
      rw [h, hone]
      exact hlast
    rw [hsum, Nat.add_mul_mod_self_left, Nat.mod_eq_of_lt (by omega)]
    omega
  · rename_i h
    have hone : (1#32).toNat = 1 := rfl
    have hsum : 2 ^ 32 - 1 + w.toNat = 2 ^ 32 + (w.toNat - 1) := by omega
    obtain ⟨q, hq⟩ := hdvd
    rw [hone, hsum, hq, Nat.mul_add_mod_self_left]

/-- `m` is what the report takes for the rate `M`: the rate itself, a third of it or two thirds. -/
theorem divisor_exact_iff {M m t pres X N D : Nat} (hM : 0 < M) (hX : 0 < X) (hpres : 0 < pres)
    (hN : 3 ≤ N) (hm : m = M ∨ 3 * m = M ∨ 3 * m = 2 * M)
    (hD : D = if m * t / pres / X = 0 then N else (m * t / pres / X - 1) % N + 1) :
    M * t = pres * (X * D) ↔ m = M ∧ ∃ k, 1 ≤ k ∧ k ≤ N ∧ M * t = pres * (X * k) := by
  have hmod := Nat.mod_lt (m * t / pres / X - 1) (by omega : 0 < N)
  have hmodle := Nat.mod_le (m * t / pres / X - 1) N
  constructor
  · intro h
    have hscaled : ∀ j, 3 * m = j * M → m * t / pres / X = j * D / 3 := by
      intro j hj
      have hmt : 3 * (m * t) = pres * (X * (j * D)) := by
        calc 3 * (m * t) = j * (M * t) := by rw [← Nat.mul_assoc, hj, Nat.mul_assoc]
          _ = pres * (X * (j * D)) := by rw [h]; ring
      calc m * t / pres / X = m * t / (pres * X) := Nat.div_div_eq_div_mul _ _ _
        _ = 3 * (m * t) / (3 * (pres * X)) := (Nat.mul_div_mul_left _ _ (by omega)).symm
        _ = pres * X * (j * D) / (pres * X * 3) := by
            rw [hmt, Nat.mul_comm 3 (pres * X), ← Nat.mul_assoc pres X]
        _ = j * D / 3 := Nat.mul_div_mul_left _ _ (Nat.mul_pos hpres hX)
    have hsame : m = M := by
      rcases hm with hm | hm | hm
      · exact hm
      · have hbrp := hscaled 1 (by omega)
        rw [hbrp] at hD hmod hmodle
        split at hD <;> omega
      · have hbrp := hscaled 2 hm
        rw [hbrp] at hD hmod hmodle
        split at hD <;> omega
    refine ⟨hsame, D, ?_, ?_, h⟩
    · split at hD <;> omega
    · split at hD <;> omega
  · rintro ⟨rfl, k, hk1, hkN, hk⟩
    have hbrp : m * t / pres / X = k := by
      rw [hk, Nat.mul_div_cancel_left _ hpres, Nat.mul_div_cancel_left _ hX]
    rw [hbrp, if_neg (by omega), Nat.mod_eq_of_lt (by omega)] at hD
    have hDk : D = k := by omega
    rw [hDk, hk]

/-! ## The clock tree after start-up -/

namespace Pmc

/-- The clock tree as `sysclk_init` and `mcan_init` leave it. -/
def booted (p : Pmc) : Pmc := mcanInitPck (sysclkInit p)

variable (p : Pmc)

theorem booted_mor : p.booted.moscrcf = p.moscrcf ∧ has p.booted.ckgrMor ckgrMorMoscsel = true := by
  obtain ⟨hrc, hsel⟩ :=
    xtal_mor p false (pmcUsToMoscxtst boardOscStartupUs (oscGetRate .slck32kRc))
  refine ⟨hrc, ?_⟩
  rw [has_eq_true]
  exact hsel.trans_ne (by decide)

theorem booted_on : p.booted.mainckOn = true := by
  have hxten : has p.booted.ckgrMor ckgrMorMoscxten = true := by
    rw [has_eq_true]
    exact (xtal_on p _).trans_ne (by decide)
  rw [mainckOn, if_pos p.booted_mor.2, hxten, Bool.true_or]

theorem booted_pck : p.booted.pmcPck pmcPck5 = pmcPckCssPllaClk ||| pmcPckPres 9#32 := by
  simp only [booted, mcanInitPck, pmcSwitchPckToPllack, pmcSwitchPck, Function.update_self]

theorem booted_source : p.booted.pckSource pmcPck5 = pmcPckCssPllaClk := by
  rw [pckSource, booted_pck]
  decide

theorem booted_pres : p.booted.pckPres pmcPck5 = 10 := by
  rw [pckPres, booted_pck]
  decide

theorem booted_plla : p.booted.pllaDiv = 1 ∧ p.booted.pllaMul = 25 := by
  have hpllar : p.booted.ckgrPllar = ckgrPllarOne ||| pllConfigInit 1#32 25#32 := rfl
  rw [pllaDiv, pllaMul, hpllar]
  decide

theorem booted_fromMainck : p.booted.FromMainck pmcPck5 := by
  obtain ⟨hdiv, hmul⟩ := p.booted_plla
  refine ⟨p.booted_on, .inr ⟨p.booted_source, ?_, ?_, ?_, ?_⟩⟩
  · rw [hmul]
    omega
  · rw [hdiv]
    omega
  · rw [hdiv]
    exact Nat.one_dvd _
  · rw [hdiv, hmul]
    omega

theorem booted_pckHz : p.booted.pckHz pmcPck5 = 30000000 := by
  obtain ⟨hdiv, hmul⟩ := p.booted_plla
  rw [pckHz, if_pos p.booted_source, mainckHz, if_pos p.booted_on, if_pos p.booted_mor.2, hdiv,
    hmul, p.booted_pres]
  norm_num

end Pmc

/-! ## The functions that compute a prescaler -/

/-- The crystal is selected, and the RC oscillator set to a rate it has. -/
structure OnCrystal (p : Pmc) : Prop where
  selected : has p.ckgrMor ckgrMorMoscsel = true
  fastrc : p.moscrcf = ckgrMorMoscrcf4MHz ∨ p.moscrcf = ckgrMorMoscrcf8MHz ∨
    p.moscrcf = ckgrMorMoscrcf12MHz

namespace OnCrystal

variable {p : Pmc}

theorem mainckHz (h : OnCrystal p) (hon : p.mainckOn = true) : p.mainckHz = 12000000 := by
  rw [Pmc.mainckHz, if_pos hon, if_pos h.selected]

theorem reported (h : OnCrystal p) (hon : p.mainckOn = true) :
    p.reportedMainckHz = p.mainckHz ∨ 3 * p.reportedMainckHz = p.mainckHz ∨
      3 * p.reportedMainckHz = 2 * p.mainckHz := by
  rw [h.mainckHz hon, Pmc.reportedMainckHz, if_pos h.selected, Pmc.fastrcHz]
  rcases h.fastrc with hf | hf | hf <;> rw [hf] <;> decide

/-- The prescaler `n` bits hold, from the report, and the true rate. -/
theorem rate_iff (h : OnCrystal p) (hsrc : p.FromMainck pmcPck5) {baudrate quanta mask : Word}
    {n : Nat} (hbaud : 0 < baudrate.toNat) (hquanta : 0 < quanta.toNat)
    (hmask : mask.toNat = 2 ^ n - 1) (hn : n ≤ 32) (hn2 : 2 ≤ n) :
    p.pckHz pmcPck5 / (((genclkGetFrequencyHz pmcPck5 p / baudrate / quanta - 1#32 &&& mask).toNat
        + 1) * quanta.toNat : ℕ) = baudrate.toNat ↔
      p.moscrcf = ckgrMorMoscrcf12MHz ∧
        ∃ k, 1 ≤ k ∧ k ≤ 2 ^ n ∧ p.pckHz pmcPck5 = (baudrate.toNat * quanta.toNat * k : ℕ) := by
  have hpres : 0 < p.pckPres pmcPck5 := Nat.succ_pos _
  have hpresQ : (p.pckPres pmcPck5 : ℚ) ≠ 0 := by exact_mod_cast hpres.ne'
  have hword : (genclkGetFrequencyHz pmcPck5 p / baudrate / quanta).toNat =
      p.reportedMainckHz * p.mainckTimes pmcPck5 / p.pckPres pmcPck5 /
        (baudrate.toNat * quanta.toNat) := by
    rw [BitVec.toNat_udiv, BitVec.toNat_udiv, Pmc.genclk_toNat hsrc, Nat.div_div_eq_div_mul]
  have hcast : ∀ a : Nat, p.pckHz pmcPck5 = (a : ℚ) ↔
      p.mainckHz * p.mainckTimes pmcPck5 = p.pckPres pmcPck5 * a := by
    intro a
    rw [hsrc.pckHz_eq, div_eq_iff hpresQ, Nat.mul_comm (p.pckPres _)]
    exact_mod_cast Iff.rfl
  have hX : 0 < baudrate.toNat * quanta.toNat := Nat.mul_pos hbaud hquanta
  have hN : 3 ≤ 2 ^ n := by
    have := Nat.pow_le_pow_right (n := 2) (by omega) hn2
    omega
  rw [brp_word hmask hn, hword]
  set D := if _ = 0 then 2 ^ n else _ % 2 ^ n + 1 with hD
  have hDpos : 0 < D := by
    rw [hD]
    split
    · exact Nat.two_pow_pos n
    · exact Nat.succ_pos _
  have hquot : ((D * quanta.toNat : ℕ) : ℚ) ≠ 0 := by
    exact_mod_cast (Nat.mul_pos hDpos hquanta).ne'
  have hshape : baudrate.toNat * (D * quanta.toNat) = baudrate.toNat * quanta.toNat * D := by ring
  rw [div_eq_iff hquot, ← Nat.cast_mul, hcast, hshape,
    divisor_exact_iff (by rw [h.mainckHz hsrc.on]; omega) hX hpres hN (h.reported hsrc.on) hD]
  simp only [hcast, (Pmc.reported_eq_iff hsrc.on).2]

end OnCrystal

theorem BitTiming.configure_open {m : Mcan} (hinit : m.initBit = true) (hcce : m.cceBit = true)
    (f : BitTiming → BitTiming) (t : BitTiming) : t.configure m f = f t := by
  rw [BitTiming.configure, hinit, hcce]
  rfl

section Set

variable {p : Pmc} {m : Mcan}

theorem setBaudrate_fields (hinit : m.initBit = true) (hcce : m.cceBit = true) (baudrate : Word)
    (t : BitTiming) : (mcanSetBaudrate baudrate p m t).nominalPrescaler =
        (genclkGetFrequencyHz pmcPck5 p / baudrate / 20#32 - 1#32 &&& 0x1FF#32).toNat + 1 ∧
      (mcanSetBaudrate baudrate p m t).nominalQuanta = 20 := by
  rw [mcanSetBaudrate, BitTiming.configure_open hinit hcce, BitTiming.nominalPrescaler,
    BitTiming.nominalQuanta]
  simp only [BitVec.or_assoc, mcanNbtpNbrp]
  rw [fieldOf_placed _ (by decide) (by decide), fieldOf_skip _ (by decide) (by decide),
    fieldOf_skip _ (by decide) (by decide)]
  exact ⟨rfl, rfl⟩

theorem fdSetBaudrate_fields (hinit : m.initBit = true) (hcce : m.cceBit = true) (baudrate : Word)
    (t : BitTiming) : (mcanFdSetBaudrate baudrate p m t).dataPrescaler =
        (genclkGetFrequencyHz pmcPck5 p / baudrate / 15#32 - 1#32 &&& 0x1F#32).toNat + 1 ∧
      (mcanFdSetBaudrate baudrate p m t).dataQuanta = 15 := by
  rw [mcanFdSetBaudrate, BitTiming.configure_open hinit hcce, BitTiming.dataPrescaler,
    BitTiming.dataQuanta]
  simp only [BitVec.or_assoc, mcanDbtpDbrp]
  rw [fieldOf_placed _ (by decide) (by decide), fieldOf_skip _ (by decide) (by decide),
    fieldOf_skip _ (by decide) (by decide)]
  exact ⟨rfl, rfl⟩

end Set

/-- **Bit rates from the report.** With the crystal selected and on, `mcan_set_baudrate` makes the
nominal rate the requested one exactly if the RC oscillator is set to 12 MHz as well, and the clock
of PCK5 is a multiple of 20 quanta that the prescaler holds; `mcan_fd_set_baudrate` likewise with 15
quanta and its own prescaler. -/
theorem setBaudrate_iff {p : Pmc} (h : OnCrystal p) (hsrc : p.FromMainck pmcPck5) {m : Mcan}
    (hinit : m.initBit = true) (hcce : m.cceBit = true) {baudrate : Word} (hbaud : baudrate ≠ 0#32)
    (t : BitTiming) :
    ((mcanSetBaudrate baudrate p m t).nominalRate p = baudrate.toNat ↔
      p.moscrcf = ckgrMorMoscrcf12MHz ∧
        ∃ k, 1 ≤ k ∧ k ≤ 512 ∧ p.pckHz pmcPck5 = (baudrate.toNat * 20 * k : ℕ)) ∧
    ((mcanFdSetBaudrate baudrate p m t).dataRate p = baudrate.toNat ↔
      p.moscrcf = ckgrMorMoscrcf12MHz ∧
        ∃ k, 1 ≤ k ∧ k ≤ 32 ∧ p.pckHz pmcPck5 = (baudrate.toNat * 15 * k : ℕ)) := by
  have hpos : 0 < baudrate.toNat := by
    rw [Nat.pos_iff_ne_zero]
    exact fun h0 => hbaud (BitVec.eq_of_toNat_eq h0)
  obtain ⟨hbrp, hquanta⟩ := setBaudrate_fields (p := p) hinit hcce baudrate t
  obtain ⟨hfdBrp, hfdQuanta⟩ := fdSetBaudrate_fields (p := p) hinit hcce baudrate t
  constructor
  · rw [BitTiming.nominalRate, hbrp, hquanta]
    exact h.rate_iff hsrc hpos (show 0 < (20#32).toNat by decide) rfl (show 9 ≤ 32 by decide)
      (by decide)
  · rw [BitTiming.dataRate, hfdBrp, hfdQuanta]
    exact h.rate_iff hsrc hpos (show 0 < (15#32).toNat by decide) rfl (show 5 ≤ 32 by decide)
      (by decide)

/-- The controller at power-on, in configuration mode. -/
def configuring : Mcan := { reset.mcan with cccr := mcanCccrInit ||| mcanCccrCce }

/-- With the RC oscillator at 12 MHz the rate `can_init` asks for would be met, three quanta of the
clock to one of the bit. -/
theorem setBaudrate_iff_start :
    (mcanSetBaudrate 500000#32 clockReset.booted configuring
      { nbtp := 0#32, dbtp := 0#32 }).nominalRate clockReset.booted = (500000#32).toNat := by
  have hmor := Pmc.booted_mor clockReset
  have hiff := setBaudrate_iff ⟨hmor.2, .inr (.inr hmor.1)⟩ (Pmc.booted_fromMainck clockReset)
    (show configuring.initBit = true by decide) (show configuring.cceBit = true by decide)
    (show 500000#32 ≠ 0#32 by decide) { nbtp := 0#32, dbtp := 0#32 }
  refine hiff.1.mpr ⟨hmor.1, 3, by decide, by decide, ?_⟩
  rw [Pmc.booted_pckHz]
  norm_num

/-! ## `can_init` -/

/-- While INIT is set, `mcan_init` opens the protected registers. -/
theorem mcanInit_opens {m : Mcan} (h : m.initBit = true) :
    (m.writeCccr (m.cccr ||| mcanCccrCce)).initBit = true ∧
      (m.writeCccr (m.cccr ||| mcanCccrCce)).cceBit = true := by
  have hcce : has (m.cccr ||| mcanCccrCce) mcanCccrCce = true := has_or_self (by decide)
  have hinit : has (m.cccr ||| mcanCccrCce) mcanCccrInit = true := by
    rw [has_or_of_disjoint (by decide)]
    exact h
  rw [Mcan.writeCccr, hcce, hinit, h]
  exact ⟨hinit, hcce⟩

theorem mcanInitTiming_of_init {m : Mcan} (h : m.initBit = true) (tdcEnable : Bool)
    (t : BitTiming) : mcanInitTiming tdcEnable m t = confTiming tdcEnable := by
  obtain ⟨hinit, hcce⟩ := mcanInit_opens h
  rw [mcanInitTiming, mcanSetConfigurationTiming, BitTiming.configure_open hinit hcce]

/-- A later call writes the same timing, or none. -/
theorem mcanInitTiming_again (m : Mcan) (tdcEnable : Bool) :
    mcanInitTiming tdcEnable m (confTiming tdcEnable) = confTiming tdcEnable := by
  rw [mcanInitTiming, mcanSetConfigurationTiming, BitTiming.configure]
  split <;> rfl

theorem confTiming_fields (tdcEnable : Bool) :
    ((confTiming tdcEnable).nominalPrescaler = 3 ∧ (confTiming tdcEnable).nominalQuanta = 20) ∧
      (confTiming tdcEnable).dataPrescaler = 1 ∧ (confTiming tdcEnable).dataQuanta = 15 := by
  cases tdcEnable <;> decide

/-- One call of `can_init` for each state the controller is in. -/
def canInitAll (tdcEnable : Bool) (controllers : List Mcan) (s : Pmc × BitTiming) :
    Pmc × BitTiming :=
  controllers.foldl (fun s m => (mcanInitPck s.1, mcanInitTiming tdcEnable m s.2)) s

theorem canInitAll_again (tdcEnable : Bool) (p : Pmc) (later : List Mcan) :
    canInitAll tdcEnable later (p.booted, confTiming tdcEnable) =
      (p.booted, confTiming tdcEnable) := by
  have hpck : mcanInitPck p.booted = p.booted := by
    simp [Pmc.booted, mcanInitPck, pmcSwitchPckToPllack, pmcSwitchPck]
  induction later with
  | nil => rfl
  | cons m later ih =>
    have hstep : canInitAll tdcEnable (m :: later) (p.booted, confTiming tdcEnable) =
        canInitAll tdcEnable later
          (mcanInitPck p.booted, mcanInitTiming tdcEnable m (confTiming tdcEnable)) := rfl
    rw [hstep, hpck, mcanInitTiming_again, ih]

/-- **Bit rates of the node.** Whatever the clock registers held before, `sysclk_init` and
`can_init` leave the controller at 500 kbit/s, and at 2 Mbit/s in the data phase, and so do the
calls of `can_init` that recover from bus-off, in whatever state they find the controller. The clock
of PCK5 is 30 MHz, from the crystal; `genclk_get_frequency_hz` reports it exactly if the RC
oscillator is set to 12 MHz, but the rates do not rest on the report. -/
theorem canInit_rates (p : Pmc) (t : BitTiming) (tdcEnable : Bool) {first : Mcan}
    (hinit : first.initBit = true) (later : List Mcan) :
    (canInitAll tdcEnable (first :: later) (sysclkInit p, t)).1.pckHz pmcPck5 = 30000000 ∧
      (canInitAll tdcEnable (first :: later) (sysclkInit p, t)).2.nominalRate
        (canInitAll tdcEnable (first :: later) (sysclkInit p, t)).1 = 500000 ∧
      (canInitAll tdcEnable (first :: later) (sysclkInit p, t)).2.dataRate
        (canInitAll tdcEnable (first :: later) (sysclkInit p, t)).1 = 2000000 ∧
      ((genclkGetFrequencyHz pmcPck5
          (canInitAll tdcEnable (first :: later) (sysclkInit p, t)).1).toNat = 30000000 ↔
        p.moscrcf = ckgrMorMoscrcf12MHz) := by
  have hboot : canInitAll tdcEnable (first :: later) (sysclkInit p, t) =
      (p.booted, confTiming tdcEnable) := by
    have hfirst : canInitAll tdcEnable (first :: later) (sysclkInit p, t) =
        canInitAll tdcEnable later (p.booted, mcanInitTiming tdcEnable first t) := rfl
    rw [hfirst, mcanInitTiming_of_init hinit, canInitAll_again]
  obtain ⟨⟨hnbrp, hnquanta⟩, hdbrp, hdquanta⟩ := confTiming_fields tdcEnable
  have hpck := p.booted_pckHz
  rw [hboot]
  refine ⟨hpck, ?_, ?_, ?_⟩
  · rw [BitTiming.nominalRate, hpck, hnbrp, hnquanta]
    norm_num
  · rw [BitTiming.dataRate, hpck, hdbrp, hdquanta]
    norm_num
  · have hfloor := Pmc.genclk_floor_iff p.booted_fromMainck
    rw [hpck, p.booted_mor.1] at hfloor
    have hnat : ⌊(30000000 : ℚ)⌋₊ = 30000000 := Nat.floor_natCast 30000000
    rwa [hnat] at hfloor

/-- The clock registers with the RC oscillator at 4 MHz, and the controller at power-on. -/
def fastrc4 : Pmc × BitTiming :=
  (sysclkInit { clockReset with ckgrMor := ckgrMorMoscrcen }, { nbtp := 0#32, dbtp := 0#32 })

/-- The report is 10 MHz, and the rates are what they should be. -/
theorem canInit_rates_fastrc4 :
    (canInitAll false [reset.mcan, configuring] fastrc4).2.nominalRate
        (canInitAll false [reset.mcan, configuring] fastrc4).1 = 500000 ∧
      (genclkGetFrequencyHz pmcPck5
        (canInitAll false [reset.mcan, configuring] fastrc4).1).toNat = 10000000 :=
  ⟨(canInit_rates { clockReset with ckgrMor := ckgrMorMoscrcen } { nbtp := 0#32, dbtp := 0#32 }
    false (show reset.mcan.initBit = true by decide) [configuring]).2.1, by decide⟩

end CanNet
