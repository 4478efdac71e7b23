import CanNet.Clock
import Mathlib.Algebra.Order.Floor.Semifield
import Mathlib.Data.Nat.Cast.Field
import Mathlib.Data.Rat.Floor

/-!
# CanNet.ClockTree

The main oscillators, PLLA and the programmable clocks as the functions of `osc.h`, `pll.h` and
`pmc.c` set them, and the rate `genclk_get_frequency_hz` reports of a programmable clock.

The functions of `pmc.c` set MOSCSEL to select the crystal; `genclk_get_frequency_hz` takes a set
MOSCSEL for the RC oscillator. `genclk_right_iff` says when the report is right all the same.
-/

namespace CanNet

open Bits

/-! ## The registers -/

def supcCrXtalsel : Word := 1#32 <<< 3
def ckgrMorMoscxten : Word := 1#32 <<< 0
def ckgrMorMoscxtby : Word := 1#32 <<< 1
def ckgrMorMoscrcen : Word := 1#32 <<< 3
def ckgrMorMoscrcfMsk : Word := 7#32 <<< 4
def ckgrMorMoscrcf4MHz : Word := 0#32 <<< 4
def ckgrMorMoscrcf8MHz : Word := 1#32 <<< 4
def ckgrMorMoscrcf12MHz : Word := 2#32 <<< 4
def ckgrMorMoscxtst (v : Word) : Word := (0xFF#32 <<< 8) &&& (v <<< 8)
def ckgrMorKeyMsk : Word := 0xFF#32 <<< 16
def ckgrMorKeyPasswd : Word := 0x37#32 <<< 16
def ckgrMorMoscsel : Word := 1#32 <<< 24
def ckgrPllarDivaMsk : Word := 0xFF#32
def ckgrPllarDiva (v : Word) : Word := ckgrPllarDivaMsk &&& v
def ckgrPllarPllacount (v : Word) : Word := (0x3F#32 <<< 8) &&& (v <<< 8)
def ckgrPllarMulaMsk : Word := 0x7FF#32 <<< 16
def ckgrPllarMula (v : Word) : Word := ckgrPllarMulaMsk &&& (v <<< 16)
def ckgrPllarOne : Word := 1#32 <<< 29
def pmcMckrUplldiv2 : Word := 1#32 <<< 13
def pmcPckCssMsk : Word := 7#32
def pmcPckCssSlowClk : Word := 0#32
def pmcPckCssMainClk : Word := 1#32
def pmcPckCssPllaClk : Word := 2#32
def pmcPckCssUpllClk : Word := 3#32
def pmcPckCssMck : Word := 4#32
def pmcPckPresMsk : Word := 0xFF#32 <<< 4
def pmcPckPres (v : Word) : Word := pmcPckPresMsk &&& (v <<< 4)

/-- `SUPC_CR` is write-only: `supcCr` is what reading it gives. -/
structure Pmc where
  supcCr : Word
  ckgrMor : Word
  ckgrPllar : Word
  pmcMckr : Word
  pmcPck : Nat → Word

namespace Pmc

/-- The password always reads as 0. -/
def readMor (p : Pmc) : Word := p.ckgrMor &&& ~~~ckgrMorKeyMsk

/-- A write without the password is aborted. -/
def writeMor (v : Word) (p : Pmc) : Pmc :=
  if v &&& ckgrMorKeyMsk = ckgrMorKeyPasswd then { p with ckgrMor := v } else p

end Pmc

/-! ## `pmc.c`

The loops that wait for an oscillator or a clock to get ready are left out. -/

def pmcSwitchMainckToFastrc (ulMoscrcf : Word) (p : Pmc) : Pmc :=
  let p := p.writeMor (p.readMor ||| (ckgrMorKeyPasswd ||| ckgrMorMoscrcen))
  let p := p.writeMor (p.readMor &&& ~~~ckgrMorMoscrcfMsk ||| ckgrMorKeyPasswd ||| ulMoscrcf)
  p.writeMor (p.readMor &&& ~~~ckgrMorMoscsel ||| ckgrMorKeyPasswd)

def pmcOscDisableFastrc (p : Pmc) : Pmc :=
  p.writeMor (p.readMor &&& ~~~ckgrMorMoscrcen &&& ~~~ckgrMorMoscrcfMsk ||| ckgrMorKeyPasswd)

def pmcSwitchMainckToXtal (ulBypass : Bool) (ulXtalStartupTime : Word) (p : Pmc) : Pmc :=
  if ulBypass then
    p.writeMor (p.readMor &&& ~~~ckgrMorMoscxten ||| ckgrMorKeyPasswd ||| ckgrMorMoscxtby |||
      ckgrMorMoscsel)
  else
    let p := p.writeMor (p.readMor &&& ~~~ckgrMorMoscxtby ||| ckgrMorKeyPasswd |||
      ckgrMorMoscxten ||| ckgrMorMoscxtst ulXtalStartupTime)
    p.writeMor (p.readMor ||| (ckgrMorKeyPasswd ||| ckgrMorMoscsel))

def pmcOscDisableXtal (ulBypass : Bool) (p : Pmc) : Pmc :=
  if ulBypass then p.writeMor (p.readMor &&& ~~~ckgrMorMoscxtby ||| ckgrMorKeyPasswd)
  else p.writeMor (p.readMor &&& ~~~ckgrMorMoscxten ||| ckgrMorKeyPasswd)

def pmcDisablePllack (p : Pmc) : Pmc :=
  { p with ckgrPllar := ckgrPllarOne ||| ckgrPllarMula 0#32 }

/-- The five functions `pmc_switch_pck_to_*`: they return 0 unless the clock does not get ready. -/
def pmcSwitchPck (css : Word) (ulId : Nat) (ulPres : Word) (p : Pmc) : Pmc :=
  { p with pmcPck := Function.update p.pmcPck ulId (css ||| ulPres) }

def pmcSwitchPckToSclk := pmcSwitchPck pmcPckCssSlowClk
def pmcSwitchPckToMainck := pmcSwitchPck pmcPckCssMainClk
def pmcSwitchPckToPllack := pmcSwitchPck pmcPckCssPllaClk
def pmcSwitchPckToUpllck := pmcSwitchPck pmcPckCssUpllClk
def pmcSwitchPckToMck := pmcSwitchPck pmcPckCssMck

def pmcGetSlckConfig (p : Pmc) : Word := p.supcCr &&& supcCrXtalsel
def pmcGetMainckConfig (p : Pmc) : Word := p.readMor &&& (ckgrMorMoscsel ||| ckgrMorMoscrcfMsk)
def pmcGetPllackConfig (p : Pmc) : Word := p.ckgrPllar &&& (ckgrPllarDivaMsk ||| ckgrPllarMulaMsk)
def pmcGetUpllckdivConfig (p : Pmc) : Word := p.pmcMckr &&& pmcMckrUplldiv2

/-! ## `osc.h`, `pll.h` -/

def boardOscStartupUs : Word := 15625#32

def pmcUsToMoscxtst (startupUs slowckFreq : Word) : Word :=
  if startupUs * slowckFreq / 8#32 / 1000000#32 < 0x100#32 then
    startupUs * slowckFreq / 8#32 / 1000000#32
  else 0xFF#32

/-- The slow clock's own oscillators are left out. -/
def oscEnable (ulId : OscId) (p : Pmc) : Pmc :=
  match ulId with
  | .slck32kRc | .slck32kXtal | .slck32kBypass => p
  | .mainck4mRc => pmcSwitchMainckToFastrc ckgrMorMoscrcf4MHz p
  | .mainck8mRc => pmcSwitchMainckToFastrc ckgrMorMoscrcf8MHz p
  | .mainck12mRc => pmcSwitchMainckToFastrc ckgrMorMoscrcf12MHz p
  | .mainckXtal =>
    pmcSwitchMainckToXtal false (pmcUsToMoscxtst boardOscStartupUs (oscGetRate .slck32kRc)) p
  | .mainckBypass =>
    pmcSwitchMainckToXtal true (pmcUsToMoscxtst boardOscStartupUs (oscGetRate .slck32kRc)) p

def oscDisable (ulId : OscId) (p : Pmc) : Pmc :=
  match ulId with
  | .slck32kRc | .slck32kXtal | .slck32kBypass => p
  | .mainck4mRc | .mainck8mRc | .mainck12mRc => pmcOscDisableFastrc p
  | .mainckXtal => pmcOscDisableXtal false p
  | .mainckBypass => pmcOscDisableXtal true p

/-- The setting of PLLA that `pll_config_init` makes. -/
def pllConfigInit (ulDiv ulMul : Word) : Word :=
  ckgrPllarMula (ulMul - 1#32) ||| ckgrPllarDiva ulDiv ||| ckgrPllarPllacount 0x3F#32

def pllEnable (ctrl : Word) (p : Pmc) : Pmc :=
  { pmcDisablePllack p with ckgrPllar := ckgrPllarOne ||| ctrl }

/-! ## `genclk.h` -/

/-- The rate of the main clock as `genclk_get_frequency_hz` sees it. -/
def genclkMainHz (clockConfig : Word) : Word :=
  if has clockConfig ckgrMorMoscsel then
    if clockConfig &&& ckgrMorMoscrcfMsk = ckgrMorMoscrcf4MHz then oscGetRate .mainck4mRc
    else if clockConfig &&& ckgrMorMoscrcfMsk = ckgrMorMoscrcf8MHz then oscGetRate .mainck8mRc
    else if clockConfig &&& ckgrMorMoscrcfMsk = ckgrMorMoscrcf12MHz then oscGetRate .mainck12mRc
    else 0#32
  else oscGetRate .mainckXtal

def genclkGetFrequencyHz (ulId : Nat) (p : Pmc) : Word :=
  let pckSource := p.pmcPck ulId &&& pmcPckCssMsk
  let pres := ((p.pmcPck ulId &&& pmcPckPresMsk) >>> 4) + 1#32
  if pckSource = pmcPckCssSlowClk then
    (if pmcGetSlckConfig p ≠ 0#32 then oscGetRate .slck32kRc else oscGetRate .slck32kXtal) / pres
  else if pckSource = pmcPckCssMainClk then genclkMainHz (pmcGetMainckConfig p) / pres
  else if pckSource = pmcPckCssPllaClk then
    let clockConfig := pmcGetPllackConfig p
    if clockConfig &&& ckgrPllarDivaMsk = 0#32 then 0#32
    else
      genclkMainHz (pmcGetMainckConfig p) *
        ((((clockConfig &&& ckgrPllarMulaMsk) >>> 16) + 1#32) /
          (clockConfig &&& ckgrPllarDivaMsk)) / pres
  else if pckSource = pmcPckCssUpllClk then
    (if pmcGetUpllckdivConfig p ≠ 0#32 then pllUpllHz / 2#32 else pllUpllHz) / pres
  else if pckSource = pmcPckCssMck then sysclkGetMainHz confClock / pres
  else 0#32 / pres

/-! ## What the clocks are

With MOSCSEL set the main clock is the crystal's. An oscillator runs while its enable bit is set, for
the crystal that of the oscillator or that of its bypass. -/

namespace Pmc

def moscrcf (p : Pmc) : Word := p.ckgrMor &&& ckgrMorMoscrcfMsk

/-- The fast RC oscillator; 0 for the reserved settings. -/
def fastrcHz (p : Pmc) : Nat :=
  if p.moscrcf = ckgrMorMoscrcf4MHz then 4000000
  else if p.moscrcf = ckgrMorMoscrcf8MHz then 8000000
  else if p.moscrcf = ckgrMorMoscrcf12MHz then 12000000
  else 0

/-- The oscillator that the main clock comes from is on. -/
def mainckOn (p : Pmc) : Bool :=
  if has p.ckgrMor ckgrMorMoscsel then
    has p.ckgrMor ckgrMorMoscxten || has p.ckgrMor ckgrMorMoscxtby
  else has p.ckgrMor ckgrMorMoscrcen

def mainckHz (p : Pmc) : Nat :=
  if p.mainckOn then (if has p.ckgrMor ckgrMorMoscsel then 12000000 else p.fastrcHz) else 0

def pllaDiv (p : Pmc) : Nat := (p.ckgrPllar &&& ckgrPllarDivaMsk).toNat
def pllaMul (p : Pmc) : Nat := ((p.ckgrPllar &&& ckgrPllarMulaMsk) >>> 16).toNat + 1

def pckSource (p : Pmc) (id : Nat) : Word := p.pmcPck id &&& pmcPckCssMsk
def pckPres (p : Pmc) (id : Nat) : Nat := ((p.pmcPck id &&& pmcPckPresMsk) >>> 4).toNat + 1

/-- The rate of a programmable clock that has the main clock for its source, or PLLA. -/
def pckHz (p : Pmc) (id : Nat) : ℚ :=
  if p.pckSource id = pmcPckCssPllaClk then p.mainckHz * p.pllaMul / p.pllaDiv / p.pckPres id
  else p.mainckHz / p.pckPres id

/-- PLLA is on and runs at a multiple of the main clock that a word holds. -/
structure PllaWhole (p : Pmc) : Prop where
  on : 1 < p.pllaMul
  div_pos : 0 < p.pllaDiv
  div_dvd : p.pllaDiv ∣ p.pllaMul
  fits : 12000000 * (p.pllaMul / p.pllaDiv) < 2 ^ 32

/-- The programmable clock comes from the main oscillators, and the one selected is on. -/
structure FromMainck (p : Pmc) (id : Nat) : Prop where
  on : p.mainckOn = true
  source : p.pckSource id = pmcPckCssMainClk ∨ p.pckSource id = pmcPckCssPllaClk ∧ p.PllaWhole

/-! ## What a write of `CKGR_MOR` does -/

section Mor

variable (p : Pmc)

theorem readMor_and {m : Word} (h : ckgrMorKeyMsk &&& m = 0#32) :
    p.readMor &&& m = p.ckgrMor &&& m := by
  rw [readMor, BitVec.and_assoc]
  congr 1
  ext i hi
  have hbit : (ckgrMorKeyMsk[i] && m[i]) = false := by
    rw [← BitVec.getElem_and, h, BitVec.getElem_zero]
  rw [BitVec.getElem_and, BitVec.getElem_not]
  cases hk : ckgrMorKeyMsk[i] <;> simp_all

variable {p}

theorem readMor_key : p.readMor &&& ckgrMorKeyMsk = 0#32 := by
  rw [readMor, BitVec.and_assoc, BitVec.and_comm (~~~_)]
  simp

section Rewrite

variable {keep bits m : Word}

/-- A read of `CKGR_MOR`, some bits cleared, the password and some others set, written back. -/
theorem rewrite_and (h : bits &&& ckgrMorKeyMsk = ckgrMorKeyPasswd)
    (hm : ckgrMorKeyMsk &&& m = 0#32) :
    (p.writeMor (p.readMor &&& keep ||| bits)).ckgrMor &&& m =
      p.ckgrMor &&& (keep &&& m) ||| bits &&& m := by
  have hkey : (p.readMor &&& keep ||| bits) &&& ckgrMorKeyMsk = ckgrMorKeyPasswd := by
    rw [BitVec.and_or_distrib_right, h, BitVec.and_assoc, BitVec.and_comm keep, ← BitVec.and_assoc,
      readMor_key, BitVec.zero_and, BitVec.zero_or]
  have hkeep : ckgrMorKeyMsk &&& (keep &&& m) = 0#32 := by
    rw [BitVec.and_comm keep, ← BitVec.and_assoc, hm, BitVec.zero_and]
  rw [writeMor, if_pos hkey, BitVec.and_or_distrib_right, BitVec.and_assoc, readMor_and p hkeep]

theorem rewrite_kept (h : bits &&& ckgrMorKeyMsk = ckgrMorKeyPasswd)
    (hm : ckgrMorKeyMsk &&& m = 0#32) (hkeep : keep &&& m = m) (hbits : bits &&& m = 0#32) :
    (p.writeMor (p.readMor &&& keep ||| bits)).ckgrMor &&& m = p.ckgrMor &&& m := by
  rw [rewrite_and h hm, hkeep, hbits, BitVec.or_zero]

theorem rewrite_set (h : bits &&& ckgrMorKeyMsk = ckgrMorKeyPasswd)
    (hm : ckgrMorKeyMsk &&& m = 0#32) (hkeep : keep &&& m = 0#32) :
    (p.writeMor (p.readMor &&& keep ||| bits)).ckgrMor &&& m = bits &&& m := by
  rw [rewrite_and h hm, hkeep, BitVec.and_zero, BitVec.zero_or]

theorem rewrite_on (h : bits &&& ckgrMorKeyMsk = ckgrMorKeyPasswd)
    (hm : ckgrMorKeyMsk &&& m = 0#32) (hbits : bits &&& m = m) :
    (p.writeMor (p.readMor &&& keep ||| bits)).ckgrMor &&& m = m := by
  rw [rewrite_and h hm, hbits]
  ext i hi
  simp only [BitVec.getElem_or, BitVec.getElem_and]
  cases m[i] <;> simp

end Rewrite

variable (p)

theorem fastrc_mor {f : Word} (h : f &&& ckgrMorMoscrcfMsk = f) :
    (pmcSwitchMainckToFastrc f p).ckgrMor &&& ckgrMorMoscrcfMsk = f ∧
      (pmcSwitchMainckToFastrc f p).ckgrMor &&& ckgrMorMoscsel = 0#32 := by
  have hkey : f &&& ckgrMorKeyMsk = 0#32 := by
    rw [← h, BitVec.and_assoc]
    simp [ckgrMorMoscrcfMsk, ckgrMorKeyMsk]
  have hrc : (ckgrMorKeyPasswd ||| f) &&& ckgrMorKeyMsk = ckgrMorKeyPasswd := by
    rw [BitVec.and_or_distrib_right, hkey]
    rfl
  rw [pmcSwitchMainckToFastrc]
  constructor
  · rw [rewrite_kept (by decide) (by decide) (by decide) (by decide), BitVec.or_assoc,
      rewrite_set hrc (by decide) (by decide), BitVec.and_or_distrib_right, h]
    simp [ckgrMorKeyPasswd, ckgrMorMoscrcfMsk]
  · rw [rewrite_set (by decide) (by decide) (by decide)]
    rfl

theorem fastrcOff_mor : (pmcOscDisableFastrc p).ckgrMor &&& ckgrMorMoscrcfMsk = ckgrMorMoscrcf4MHz ∧
      (pmcOscDisableFastrc p).ckgrMor &&& ckgrMorMoscsel = p.ckgrMor &&& ckgrMorMoscsel := by
  rw [pmcOscDisableFastrc, BitVec.and_assoc p.readMor]
  constructor
  · rw [rewrite_set (by decide) (by decide) (by decide)]
    rfl
  · exact rewrite_kept (by decide) (by decide) (by decide) (by decide)

theorem moscxtst_and {m : Word} (v : Word) (hm : (0xFF#32 <<< 8) &&& m = 0#32) :
    ckgrMorMoscxtst v &&& m = 0#32 := by
  rw [ckgrMorMoscxtst, BitVec.and_comm, ← BitVec.and_assoc, BitVec.and_comm m, hm, BitVec.zero_and]

/-- Outside the startup time, what the start of the crystal writes. -/
theorem xtal_bits {m : Word} (v : Word) (hm : (0xFF#32 <<< 8) &&& m = 0#32) :
    (ckgrMorKeyPasswd ||| (ckgrMorMoscxten ||| ckgrMorMoscxtst v)) &&& m =
      (ckgrMorKeyPasswd ||| ckgrMorMoscxten) &&& m := by
  rw [BitVec.and_or_distrib_right, BitVec.and_or_distrib_right, moscxtst_and v hm, BitVec.or_zero,
    BitVec.and_or_distrib_right]

theorem xtal_key (v : Word) :
    (ckgrMorKeyPasswd ||| (ckgrMorMoscxten ||| ckgrMorMoscxtst v)) &&& ckgrMorKeyMsk =
      ckgrMorKeyPasswd := by
  rw [xtal_bits v (by decide)]
  rfl

theorem xtal_mor (bypass : Bool) (v : Word) :
    (pmcSwitchMainckToXtal bypass v p).ckgrMor &&& ckgrMorMoscrcfMsk =
        p.ckgrMor &&& ckgrMorMoscrcfMsk ∧
      (pmcSwitchMainckToXtal bypass v p).ckgrMor &&& ckgrMorMoscsel = ckgrMorMoscsel := by
  cases bypass with
  | true =>
    rw [pmcSwitchMainckToXtal, if_pos rfl, BitVec.or_assoc, BitVec.or_assoc]
    constructor
    · exact rewrite_kept (by decide) (by decide) (by decide) (by decide)
    · exact rewrite_on (by decide) (by decide) (by decide)
  | false =>
    have hrc : (ckgrMorKeyPasswd ||| (ckgrMorMoscxten ||| ckgrMorMoscxtst v)) &&&
        ckgrMorMoscrcfMsk = 0#32 := by
      rw [xtal_bits v (by decide)]
      rfl
    rw [pmcSwitchMainckToXtal, if_neg Bool.false_ne_true, BitVec.or_assoc, BitVec.or_assoc]
    simp only
    rw [← BitVec.and_allOnes (x := readMor (writeMor _ p))]
    constructor
    · rw [rewrite_kept (by decide) (by decide) (by decide) (by decide)]
      exact rewrite_kept (xtal_key v) (by decide) (by decide) hrc
    · exact rewrite_on (by decide) (by decide) (by decide)

theorem xtal_on (v : Word) :
    (pmcSwitchMainckToXtal false v p).ckgrMor &&& ckgrMorMoscxten = ckgrMorMoscxten := by
  have hxten : (ckgrMorKeyPasswd ||| (ckgrMorMoscxten ||| ckgrMorMoscxtst v)) &&& ckgrMorMoscxten =
      ckgrMorMoscxten := by
    rw [xtal_bits v (by decide)]
    rfl
  rw [pmcSwitchMainckToXtal, if_neg Bool.false_ne_true, BitVec.or_assoc, BitVec.or_assoc]
  simp only
  rw [← BitVec.and_allOnes (x := readMor (writeMor _ p)),
    rewrite_kept (by decide) (by decide) (by decide) (by decide)]
  exact rewrite_on (xtal_key v) (by decide) hxten

theorem xtalOff_mor (bypass : Bool) :
    (pmcOscDisableXtal bypass p).ckgrMor &&& ckgrMorMoscrcfMsk = p.ckgrMor &&& ckgrMorMoscrcfMsk ∧
      (pmcOscDisableXtal bypass p).ckgrMor &&& ckgrMorMoscsel = p.ckgrMor &&& ckgrMorMoscsel := by
  cases bypass with
  | true =>
    rw [pmcOscDisableXtal, if_pos rfl]
    exact ⟨rewrite_kept (by decide) (by decide) (by decide) (by decide),
      rewrite_kept (by decide) (by decide) (by decide) (by decide)⟩
  | false =>
    rw [pmcOscDisableXtal, if_neg Bool.false_ne_true]
    exact ⟨rewrite_kept (by decide) (by decide) (by decide) (by decide),
      rewrite_kept (by decide) (by decide) (by decide) (by decide)⟩

end Mor

/-! ## The report -/

section Report

variable {p : Pmc} {id : Nat}

/-- The rate `genclk_get_frequency_hz` takes for the main clock's. -/
def reportedMainckHz (p : Pmc) : Nat :=
  if has p.ckgrMor ckgrMorMoscsel then p.fastrcHz else 12000000

theorem fastrcHz_le (p : Pmc) : p.fastrcHz ≤ 12000000 := by
  unfold fastrcHz
  split
  · omega
  split
  · omega
  split <;> omega

theorem mainHz_toNat (p : Pmc) :
    (genclkMainHz (pmcGetMainckConfig p)).toNat = p.reportedMainckHz := by
  have hsel : pmcGetMainckConfig p &&& ckgrMorMoscsel = p.ckgrMor &&& ckgrMorMoscsel := by
    rw [pmcGetMainckConfig, BitVec.and_assoc]
    exact readMor_and p (by decide)
  have hrc : pmcGetMainckConfig p &&& ckgrMorMoscrcfMsk = p.moscrcf := by
    rw [pmcGetMainckConfig, BitVec.and_assoc]
    exact readMor_and p (by decide)
  rw [genclkMainHz, reportedMainckHz, has, hsel, ← has]
  split
  · rw [hrc, fastrcHz]
    split
    · rfl
    split
    · rfl
    split <;> rfl
  · rfl

/-- The whole number PLLA multiplies the main clock by. -/
def mainckTimes (p : Pmc) (id : Nat) : Nat :=
  if p.pckSource id = pmcPckCssPllaClk then p.pllaMul / p.pllaDiv else 1

theorem css_ne : pmcPckCssMainClk ≠ pmcPckCssPllaClk := by decide

theorem FromMainck.whole (h : p.FromMainck id) (hp : p.pckSource id = pmcPckCssPllaClk) :
    p.PllaWhole := by
  rcases h.source with hsrc | ⟨_, hw⟩
  · exact absurd (hsrc.symm.trans hp) css_ne
  · exact hw

theorem FromMainck.times_pos (h : p.FromMainck id) : 0 < p.mainckTimes id := by
  unfold mainckTimes
  split
  · rename_i hp
    exact Nat.div_pos (Nat.le_of_dvd (Nat.succ_pos _) (h.whole hp).div_dvd) (h.whole hp).div_pos
  · exact Nat.one_pos

theorem FromMainck.times_fits (h : p.FromMainck id) : 12000000 * p.mainckTimes id < 2 ^ 32 := by
  unfold mainckTimes
  split
  · rename_i hp
    exact (h.whole hp).fits
  · omega

theorem FromMainck.pckHz_eq (h : p.FromMainck id) :
    p.pckHz id = (p.mainckHz * p.mainckTimes id : ℕ) / (p.pckPres id : ℕ) := by
  unfold pckHz mainckTimes
  split
  · rename_i hp
    have hdiv : (p.pllaDiv : ℚ) ≠ 0 := by exact_mod_cast (h.whole hp).div_pos.ne'
    rw [Nat.cast_mul, Nat.cast_div (h.whole hp).div_dvd hdiv, mul_div_assoc]
  · rw [Nat.mul_one]

theorem floor_pckHz (h : p.FromMainck id) :
    ⌊p.pckHz id⌋₊ = p.mainckHz * p.mainckTimes id / p.pckPres id := by
  rw [h.pckHz_eq, Nat.floor_div_natCast, Nat.floor_natCast]

theorem field_succ {m : Word} {k : Nat} (hm : m.toNat / 2 ^ k + 1 < 2 ^ 32) (w : Word) :
    (((w &&& m) >>> k) + 1#32).toNat = ((w &&& m) >>> k).toNat + 1 := by
  have hle : (w &&& m).toNat ≤ m.toNat := by
    rw [BitVec.toNat_and]
    exact Nat.and_le_right
  have hdiv : (w &&& m).toNat / 2 ^ k ≤ m.toNat / 2 ^ k := Nat.div_le_div_right hle
  rw [BitVec.toNat_add, BitVec.toNat_ushiftRight, Nat.shiftRight_eq_div_pow, Nat.mod_eq_of_lt]
  · rfl
  · simp only [BitVec.toNat_ofNat]
    omega

theorem FromMainck.toNat_mul (h : p.FromMainck id) {w q : Word} (hw : w.toNat ≤ 12000000)
    (hq : q.toNat = p.mainckTimes id) : (w * q).toNat = w.toNat * p.mainckTimes id := by
  have hle : w.toNat * p.mainckTimes id ≤ 12000000 * p.mainckTimes id :=
    Nat.mul_le_mul_right _ hw
  rw [BitVec.toNat_mul, hq, Nat.mod_eq_of_lt (Nat.lt_of_le_of_lt hle h.times_fits)]

theorem genclk_toNat (h : p.FromMainck id) : (genclkGetFrequencyHz id p).toNat =
    p.reportedMainckHz * p.mainckTimes id / p.pckPres id := by
  have hpres : (((p.pmcPck id &&& pmcPckPresMsk) >>> 4) + 1#32).toNat = p.pckPres id :=
    field_succ (by decide) _
  have hmain := mainHz_toNat p
  have hle : p.reportedMainckHz ≤ 12000000 := by
    unfold reportedMainckHz
    split
    · exact fastrcHz_le p
    · exact Nat.le_refl _
  rcases h.source with hsrc | ⟨hsrc, hw⟩
  · have hone : p.mainckTimes id = 1 := by
      rw [mainckTimes, hsrc, if_neg css_ne]
    rw [pckSource] at hsrc
    rw [hone, Nat.mul_one, ← hmain, ← hpres, genclkGetFrequencyHz]
    simp only [hsrc]
    rw [if_neg (by decide), if_pos trivial, BitVec.toNat_udiv]
  · have htimes : p.mainckTimes id = p.pllaMul / p.pllaDiv := by
      rw [mainckTimes, if_pos hsrc]
    have hdiva : pmcGetPllackConfig p &&& ckgrPllarDivaMsk = p.ckgrPllar &&& ckgrPllarDivaMsk := by
      rw [pmcGetPllackConfig, BitVec.and_assoc]
      rfl
    have hmula : pmcGetPllackConfig p &&& ckgrPllarMulaMsk = p.ckgrPllar &&& ckgrPllarMulaMsk := by
      rw [pmcGetPllackConfig, BitVec.and_assoc]
      rfl
    have hquot : ((((p.ckgrPllar &&& ckgrPllarMulaMsk) >>> 16) + 1#32) /
        (p.ckgrPllar &&& ckgrPllarDivaMsk)).toNat = p.mainckTimes id := by
      rw [BitVec.toNat_udiv, field_succ (by decide), htimes]
      rfl
    have hdiv0 : p.ckgrPllar &&& ckgrPllarDivaMsk ≠ 0#32 := by
      intro h0
      have hpos := hw.div_pos
      rw [pllaDiv, h0] at hpos
      exact Nat.lt_irrefl 0 hpos
    rw [pckSource] at hsrc
    rw [genclkGetFrequencyHz]
    simp only [hsrc, hdiva, hmula]
    rw [if_neg (by decide), if_neg (by decide), if_pos trivial, if_neg hdiv0, BitVec.toNat_udiv,
      h.toNat_mul (hmain ▸ hle) hquot, hmain, hpres]

theorem pckPres_le (p : Pmc) (id : Nat) : p.pckPres id ≤ 256 := by
  have hle : (p.pmcPck id &&& pmcPckPresMsk).toNat ≤ pmcPckPresMsk.toNat := by
    rw [BitVec.toNat_and]
    exact Nat.and_le_right
  have hmsk : pmcPckPresMsk.toNat = 4080 := rfl
  rw [pckPres, BitVec.toNat_ushiftRight, Nat.shiftRight_eq_div_pow]
  omega

theorem div_lt_div_of_gap {a b n : Nat} (hn : 0 < n) (h : a + n ≤ b) : a / n < b / n := by
  have hstep : (a + n) / n ≤ b / n := Nat.div_le_div_right h
  rw [Nat.add_div_right _ hn] at hstep
  exact hstep

/-- Rates that differ by megahertz stay apart. -/
theorem scaled_eq_iff (h : p.FromMainck id) {a b : Nat} (hgap : a = b ∨ a + 256 ≤ b ∨ b + 256 ≤ a) :
    a * p.mainckTimes id / p.pckPres id = b * p.mainckTimes id / p.pckPres id ↔ a = b := by
  have hpos : 0 < p.pckPres id := Nat.succ_pos _
  have hpres := pckPres_le p id
  have hscale : ∀ {x y : Nat}, x + 256 ≤ y →
      x * p.mainckTimes id / p.pckPres id < y * p.mainckTimes id / p.pckPres id := by
    intro x y hxy
    have htimes := Nat.mul_le_mul_right (p.mainckTimes id) hxy
    rw [Nat.add_mul] at htimes
    have hone : 256 * 1 ≤ 256 * p.mainckTimes id := Nat.mul_le_mul_left _ h.times_pos
    exact div_lt_div_of_gap hpos (by omega)
  constructor
  · intro heq
    rcases hgap with hab | hab | hab
    · exact hab
    · exact absurd heq (hscale hab).ne
    · exact absurd heq (hscale hab).ne'
  · rintro rfl
    rfl

theorem fastrcHz_eq_iff (p : Pmc) : p.fastrcHz = 12000000 ↔ p.moscrcf = ckgrMorMoscrcf12MHz := by
  unfold fastrcHz
  split
  · rename_i h
    rw [h]
    decide
  split
  · rename_i h
    rw [h]
    decide
  split
  · rename_i h
    simp [h]
  · rename_i h
    simp [h]

theorem fastrcHz_gap (p : Pmc) : p.fastrcHz = 12000000 ∨ p.fastrcHz + 256 ≤ 12000000 := by
  unfold fastrcHz
  split
  · omega
  split
  · omega
  split <;> omega

/-- While the main clock runs, its two rates are the crystal's and the RC oscillator's, exchanged. -/
theorem reported_eq_iff (hon : p.mainckOn = true) :
    (p.reportedMainckHz = p.mainckHz ∨ p.reportedMainckHz + 256 ≤ p.mainckHz ∨
      p.mainckHz + 256 ≤ p.reportedMainckHz) ∧
    (p.reportedMainckHz = p.mainckHz ↔ p.moscrcf = ckgrMorMoscrcf12MHz) := by
  have hgap := fastrcHz_gap p
  rw [← fastrcHz_eq_iff, mainckHz, if_pos hon, reportedMainckHz]
  cases has p.ckgrMor ckgrMorMoscsel with
  | true =>
    simp only [if_true]
    exact ⟨by omega, trivial⟩
  | false =>
    simp only [Bool.false_eq_true, if_false]
    exact ⟨by omega, eq_comm⟩

theorem genclk_floor_iff (h : p.FromMainck id) :
    (genclkGetFrequencyHz id p).toNat = ⌊p.pckHz id⌋₊ ↔ p.moscrcf = ckgrMorMoscrcf12MHz := by
  obtain ⟨hgap, hiff⟩ := reported_eq_iff h.on
  rw [genclk_toNat h, floor_pckHz h, scaled_eq_iff h hgap, hiff]

end Report

end Pmc

/-! ## Runs of the clock functions -/

inductive ClockCall where
  | oscEnable (id : OscId)
  | oscDisable (id : OscId)
  | pllEnable (ctrl : Word)
  | pllDisable
  | switchPckToSclk (id : Nat) (pres : Word)
  | switchPckToMainck (id : Nat) (pres : Word)
  | switchPckToPllack (id : Nat) (pres : Word)
  | switchPckToUpllck (id : Nat) (pres : Word)
  | switchPckToMck (id : Nat) (pres : Word)

namespace ClockCall

def run : ClockCall → Pmc → Pmc
  | oscEnable id => CanNet.oscEnable id
  | oscDisable id => CanNet.oscDisable id
  | pllEnable ctrl => CanNet.pllEnable ctrl
  | pllDisable => pmcDisablePllack
  | switchPckToSclk id pres => pmcSwitchPckToSclk id pres
  | switchPckToMainck id pres => pmcSwitchPckToMainck id pres
  | switchPckToPllack id pres => pmcSwitchPckToPllack id pres
  | switchPckToUpllck id pres => pmcSwitchPckToUpllck id pres
  | switchPckToMck id pres => pmcSwitchPckToMck id pres

def runAll (calls : List ClockCall) (p : Pmc) : Pmc := calls.foldl (fun p call => call.run p) p

/-- The setting of the RC oscillator that a call leaves: disabling it resets the setting. -/
def fastrc : ClockCall → Word → Word
  | oscEnable .mainck4mRc, _ => ckgrMorMoscrcf4MHz
  | oscEnable .mainck8mRc, _ => ckgrMorMoscrcf8MHz
  | oscEnable .mainck12mRc, _ => ckgrMorMoscrcf12MHz
  | oscDisable .mainck4mRc, _ => ckgrMorMoscrcf4MHz
  | oscDisable .mainck8mRc, _ => ckgrMorMoscrcf4MHz
  | oscDisable .mainck12mRc, _ => ckgrMorMoscrcf4MHz
  | _, f => f

def fastrcAfter (calls : List ClockCall) (f : Word) : Word :=
  calls.foldl (fun f call => call.fastrc f) f

theorem run_moscrcf (call : ClockCall) (p : Pmc) :
    (call.run p).moscrcf = call.fastrc p.moscrcf := by
  cases call with
  | oscEnable id =>
    cases id with
    | slck32kRc | slck32kXtal | slck32kBypass => rfl
    | mainck4mRc | mainck8mRc | mainck12mRc => exact (Pmc.fastrc_mor p (by decide)).1
    | mainckXtal | mainckBypass => exact (Pmc.xtal_mor p _ _).1
  | oscDisable id =>
    cases id with
    | slck32kRc | slck32kXtal | slck32kBypass => rfl
    | mainck4mRc | mainck8mRc | mainck12mRc => exact (Pmc.fastrcOff_mor p).1
    | mainckXtal | mainckBypass => exact (Pmc.xtalOff_mor p _).1
  | pllEnable ctrl => rfl
  | pllDisable => rfl
  | switchPckToSclk id pres | switchPckToMainck id pres | switchPckToPllack id pres => rfl
  | switchPckToUpllck id pres | switchPckToMck id pres => rfl

theorem runAll_moscrcf (calls : List ClockCall) : ∀ p : Pmc,
    (runAll calls p).moscrcf = fastrcAfter calls p.moscrcf := by
  induction calls with
  | nil => intro p; rfl
  | cons call calls ih =>
    intro p
    have hrest := ih (call.run p)
    rw [run_moscrcf] at hrest
    exact hrest

end ClockCall

/-- **Clock report.** After any calls of the clock functions `genclk_get_frequency_hz` reports the
rate of a programmable clock that comes from the main oscillators, the one selected being on, exactly
if the RC oscillator was last set to 12 MHz, the crystal's own rate. Which of the two the main clock
comes from plays no part. -/
theorem genclk_right_iff (calls : List ClockCall) {p : Pmc} {id : Nat}
    (h : (ClockCall.runAll calls p).FromMainck id) :
    (genclkGetFrequencyHz id (ClockCall.runAll calls p)).toNat =
        ⌊(ClockCall.runAll calls p).pckHz id⌋₊ ↔
      ClockCall.fastrcAfter calls p.moscrcf = ckgrMorMoscrcf12MHz := by
  rw [Pmc.genclk_floor_iff h, ClockCall.runAll_moscrcf]

/-- The clock registers with the RC oscillator at 12 MHz. -/
def clockReset : Pmc where
  supcCr := 0#32
  ckgrMor := ckgrMorMoscrcen ||| ckgrMorMoscrcf12MHz
  ckgrPllar := 0#32
  pmcMckr := 0#32
  pmcPck := fun _ => 0#32

/-- The RC oscillator was disabled and the crystal selected: the report is 4 MHz for 12 MHz. -/
theorem genclk_right_iff_crystal :
    (genclkGetFrequencyHz 5 (ClockCall.runAll
      [.oscDisable .mainck12mRc, .oscEnable .mainckXtal, .switchPckToMainck 5 0#32]
      clockReset)).toNat ≠
    ⌊(ClockCall.runAll
      [.oscDisable .mainck12mRc, .oscEnable .mainckXtal, .switchPckToMainck 5 0#32]
      clockReset).pckHz 5⌋₊ := by
  intro h
  have hrc := (genclk_right_iff
    [.oscDisable .mainck12mRc, .oscEnable .mainckXtal, .switchPckToMainck 5 0#32]
    ⟨by decide, .inl (by decide)⟩).mp h
  exact absurd hrc (by decide)

end CanNet
