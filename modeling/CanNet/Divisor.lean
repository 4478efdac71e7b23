import CanNet.Lib.RangeSearch
import CanNet.Ticker
import Mathlib.Data.Nat.Basic

/-!
# CanNet.Divisor

`tc_find_mck_divisor`: the clock divisor whose range of timer frequencies contains a given one.

The loop gives up at the first divisor whose highest frequency is too low. `find_mck_divisor_correct`
says that this misses nothing: the first divisor, 2, is the smallest, and the lowest frequency it
reaches is below the highest of any other.
-/

namespace CanNet

open RangeSearch (rangeSearch contains contains_iff rangeSearch_eq_findIdx?)

/-! ## `tc.c` -/

def boardFreqSlckXtal : Word := 32768#32
def tcDivFactor : Word := 65536#32

/-- The array `divisors`. -/
def mckDivisors (ulBoardmck : Word) : List Word :=
  [2#32, 8#32, 32#32, 128#32, ulBoardmck / boardFreqSlckXtal]

/-- The loop from `ulIndex` on, over the divisors left: `none` is the return inside it, otherwise
it is left with the index. -/
def findMckIndex (ulFreq ulMck : Word) : List Word → Nat → Option Nat
  | [], ulIndex => some ulIndex
  | divisor :: divisors, ulIndex =>
    let ulHigh := ulMck / divisor
    let ulLow := ulHigh / tcDivFactor
    if ulHigh < ulFreq then none
    else if ulLow ≤ ulFreq then some ulIndex
    else findMckIndex ulFreq ulMck divisors (ulIndex + 1)

/-- The value returned and what the two output pointers refer to afterwards; `none` is a null
pointer. -/
def tcFindMckDivisor (ulFreq ulMck : Word) (pUldiv pUltcclks : Option Word) (ulBoardmck : Word) :
    Word × Option Word × Option Word :=
  let divisors := mckDivisors ulBoardmck
  match findMckIndex ulFreq ulMck divisors 0 with
  | none => (0#32, pUldiv, pUltcclks)
  | some ulIndex =>
    if h : ulIndex < divisors.length then
      (1#32, pUldiv.map fun _ => divisors[ulIndex], pUltcclks.map fun _ => BitVec.ofNat 32 ulIndex)
    else (0#32, pUldiv, pUltcclks)

/-! ## The ranges -/

/-- The five divisors in exact arithmetic. -/
def exactDivisors (boardMckHz : Nat) : List Nat := [2, 8, 32, 128, boardMckHz / 32768]

def highFreq (mck divisor : Nat) : Nat := mck / divisor
def lowFreq (mck divisor : Nat) : Nat := highFreq mck divisor / 65536

/-- With this divisor the timer can run at frequency `freq`. -/
def Admits (mck freq divisor : Nat) : Prop :=
  lowFreq mck divisor ≤ freq ∧ freq ≤ highFreq mck divisor

instance (mck freq divisor : Nat) : Decidable (Admits mck freq divisor) :=
  inferInstanceAs (Decidable (lowFreq mck divisor ≤ freq ∧ freq ≤ highFreq mck divisor))

theorem mckDivisors_toNat (ulBoardmck : Word) :
    (mckDivisors ulBoardmck).map BitVec.toNat = exactDivisors ulBoardmck.toNat := by
  simp [mckDivisors, exactDivisors, boardFreqSlckXtal]

/-- The loop ends where the search in the ranges ends. -/
theorem findMckIndex_cases (ulFreq ulMck : Word) (divisors : List Word) : ∀ ulIndex : Nat,
    (∃ i, rangeSearch (lowFreq ulMck.toNat) (highFreq ulMck.toNat) ulFreq.toNat
        (divisors.map BitVec.toNat) = some i ∧ i < divisors.length ∧
      findMckIndex ulFreq ulMck divisors ulIndex = some (ulIndex + i)) ∨
    (rangeSearch (lowFreq ulMck.toNat) (highFreq ulMck.toNat) ulFreq.toNat
        (divisors.map BitVec.toNat) = none ∧
      (findMckIndex ulFreq ulMck divisors ulIndex = none ∨
        findMckIndex ulFreq ulMck divisors ulIndex = some (ulIndex + divisors.length))) := by
  induction divisors with
  | nil => intro ulIndex; exact .inr ⟨rfl, .inr rfl⟩
  | cons divisor divisors ih =>
    intro ulIndex
    have hhigh : ulMck / divisor < ulFreq ↔ highFreq ulMck.toNat divisor.toNat < ulFreq.toNat := by
      rw [BitVec.lt_def, BitVec.toNat_udiv, highFreq]
    have hlow : ulMck / divisor / tcDivFactor ≤ ulFreq ↔
        lowFreq ulMck.toNat divisor.toNat ≤ ulFreq.toNat := by
      rw [BitVec.le_def, BitVec.toNat_udiv, BitVec.toNat_udiv, lowFreq, highFreq]
      rfl
    have hloop : findMckIndex ulFreq ulMck (divisor :: divisors) ulIndex =
        if highFreq ulMck.toNat divisor.toNat < ulFreq.toNat then none
        else if lowFreq ulMck.toNat divisor.toNat ≤ ulFreq.toNat then some ulIndex
        else findMckIndex ulFreq ulMck divisors (ulIndex + 1) := by
      simp only [findMckIndex, hhigh, hlow]
    rw [hloop, List.map_cons, rangeSearch]
    by_cases habove : highFreq ulMck.toNat divisor.toNat < ulFreq.toNat
    · rw [if_pos habove, if_pos habove]
      exact .inr ⟨rfl, .inl rfl⟩
    · rw [if_neg habove, if_neg habove]
      by_cases hin : lowFreq ulMck.toNat divisor.toNat ≤ ulFreq.toNat
      · rw [if_pos hin, if_pos hin]
        exact .inl ⟨0, rfl, by simp, rfl⟩
      · rw [if_neg hin, if_neg hin]
        rcases ih (ulIndex + 1) with ⟨i, hi, hlt, hindex⟩ | ⟨hnone, hleft⟩
        · refine .inl ⟨i + 1, by rw [hi]; rfl, by simpa using hlt, ?_⟩
          rw [hindex, Nat.add_assoc, Nat.add_comm 1 i]
        · refine .inr ⟨by rw [hnone]; rfl, hleft.imp_right fun hlen => ?_⟩
          rw [hlen, List.length_cons, Nat.add_assoc, Nat.add_comm 1]

/-! ## The search -/

/-- The divisor at index `i` is the first that admits the frequency. -/
def FirstAdmitting (boardMckHz mck freq i divisor : Nat) : Prop :=
  (exactDivisors boardMckHz)[i]? = some divisor ∧ Admits mck freq divisor ∧
    ∀ j d, j < i → (exactDivisors boardMckHz)[j]? = some d → ¬ Admits mck freq d

theorem not_contains_iff {mck freq d : Nat} :
    contains (lowFreq mck) (highFreq mck) freq d = false ↔ ¬ Admits mck freq d := by
  rw [Bool.eq_false_iff, ne_eq, contains_iff, Admits]

/-- The divisors meet the conditions under which giving up early is safe: 2 is the smallest, and
none is so large that its highest frequency lies below the lowest of 2. -/
theorem divisorSearch_eq {boardMckHz : Nat} (hlow : 65536 ≤ boardMckHz)
    (hbound : boardMckHz ≤ 0xFFFFFFFF) (mck freq : Nat) :
    rangeSearch (lowFreq mck) (highFreq mck) freq (exactDivisors boardMckHz) =
      (exactDivisors boardMckHz).findIdx? (contains (lowFreq mck) (highFreq mck) freq) := by
  have hd : ∀ d, d ∈ [8, 32, 128, boardMckHz / 32768] → 2 ≤ d ∧ d ≤ 2 * 65536 := by
    intro d hd
    simp only [List.mem_cons, List.not_mem_nil, or_false] at hd
    omega
  refine rangeSearch_eq_findIdx? (fun d hmem => ?_) fun d hmem => ?_
  · exact Nat.div_le_div_left (hd d hmem).1 (by omega)
  · obtain ⟨h2, hle⟩ := hd d hmem
    rw [lowFreq, highFreq, highFreq, Nat.div_div_eq_div_mul]
    exact Nat.div_le_div_left hle (by omega)

/-- The function as a search in the ranges of the exact divisors. -/
theorem tcFindMckDivisor_cases (ulFreq ulMck : Word) (pUldiv pUltcclks : Option Word)
    (ulBoardmck : Word) :
    (∃ i d, rangeSearch (lowFreq ulMck.toNat) (highFreq ulMck.toNat) ulFreq.toNat
        (exactDivisors ulBoardmck.toNat) = some i ∧
      (exactDivisors ulBoardmck.toNat)[i]? = some d ∧
      tcFindMckDivisor ulFreq ulMck pUldiv pUltcclks ulBoardmck =
        (1#32, pUldiv.map fun _ => BitVec.ofNat 32 d, pUltcclks.map fun _ => BitVec.ofNat 32 i)) ∨
    (rangeSearch (lowFreq ulMck.toNat) (highFreq ulMck.toNat) ulFreq.toNat
        (exactDivisors ulBoardmck.toNat) = none ∧
      tcFindMckDivisor ulFreq ulMck pUldiv pUltcclks ulBoardmck = (0#32, pUldiv, pUltcclks)) := by
  rw [← mckDivisors_toNat]
  rcases findMckIndex_cases ulFreq ulMck (mckDivisors ulBoardmck) 0 with
    ⟨i, hi, hlt, hindex⟩ | ⟨hnone, hindex | hindex⟩
  · refine .inl ⟨i, ((mckDivisors ulBoardmck)[i]).toNat, hi, ?_, ?_⟩
    · rw [List.getElem?_map, List.getElem?_eq_getElem hlt]
      rfl
    · rw [Nat.zero_add] at hindex
      simp only [tcFindMckDivisor, hindex, dif_pos hlt, BitVec.ofNat_toNat, BitVec.setWidth_eq]
  · exact .inr ⟨hnone, by simp only [tcFindMckDivisor, hindex]⟩
  · rw [Nat.zero_add] at hindex
    refine .inr ⟨hnone, ?_⟩
    simp only [tcFindMckDivisor, hindex, dif_neg (Nat.lt_irrefl _)]

theorem search_eq_some_iff {boardMckHz i d : Nat} (hlow : 65536 ≤ boardMckHz)
    (hbound : boardMckHz ≤ 0xFFFFFFFF) (mck freq : Nat) :
    rangeSearch (lowFreq mck) (highFreq mck) freq (exactDivisors boardMckHz) = some i ∧
        (exactDivisors boardMckHz)[i]? = some d ↔
      FirstAdmitting boardMckHz mck freq i d := by
  rw [divisorSearch_eq hlow hbound, List.findIdx?_eq_some_iff_getElem]
  constructor
  · rintro ⟨⟨hlt, hin, hfirst⟩, hd⟩
    rw [List.getElem?_eq_getElem hlt] at hd
    cases hd
    refine ⟨List.getElem?_eq_getElem hlt, contains_iff.mp hin, fun j d' hj hd' => ?_⟩
    obtain ⟨_, rfl⟩ := List.getElem?_eq_some_iff.mp hd'
    exact not_contains_iff.mp (Bool.eq_false_iff.mpr (hfirst j hj))
  · rintro ⟨hd, hin, hfirst⟩
    obtain ⟨hlt, rfl⟩ := List.getElem?_eq_some_iff.mp hd
    refine ⟨⟨hlt, contains_iff.mpr hin, fun j hj hc => ?_⟩, hd⟩
    exact hfirst j _ hj (List.getElem?_eq_getElem (Nat.lt_trans hj hlt)) (contains_iff.mp hc)

theorem search_eq_none_iff {boardMckHz : Nat} (hlow : 65536 ≤ boardMckHz)
    (hbound : boardMckHz ≤ 0xFFFFFFFF) (mck freq : Nat) :
    rangeSearch (lowFreq mck) (highFreq mck) freq (exactDivisors boardMckHz) = none ↔
      ∀ d, d ∈ exactDivisors boardMckHz → ¬ Admits mck freq d := by
  rw [divisorSearch_eq hlow hbound, List.findIdx?_eq_none_iff]
  exact forall₂_congr fun d _ => not_contains_iff

/-- **Divisor search.** With a board clock of at least 65536 Hz the function returns 1 exactly when
some divisor admits the frequency; then it stores the first such divisor and its index through
the pointers that are not null, and otherwise it returns 0 and stores nothing. -/
theorem find_mck_divisor_correct {ulBoardmck : Word} (h : 65536 ≤ ulBoardmck.toNat)
    (ulFreq ulMck : Word) (pUldiv pUltcclks : Option Word) :
    ((tcFindMckDivisor ulFreq ulMck pUldiv pUltcclks ulBoardmck).1 = 1#32 ↔
      ∃ d, d ∈ exactDivisors ulBoardmck.toNat ∧ Admits ulMck.toNat ulFreq.toNat d) ∧
    (∀ i d, FirstAdmitting ulBoardmck.toNat ulMck.toNat ulFreq.toNat i d →
      tcFindMckDivisor ulFreq ulMck pUldiv pUltcclks ulBoardmck =
        (1#32, pUldiv.map fun _ => BitVec.ofNat 32 d, pUltcclks.map fun _ => BitVec.ofNat 32 i)) ∧
    ((¬ ∃ d, d ∈ exactDivisors ulBoardmck.toNat ∧ Admits ulMck.toNat ulFreq.toNat d) →
      tcFindMckDivisor ulFreq ulMck pUldiv pUltcclks ulBoardmck = (0#32, pUldiv, pUltcclks)) := by
  have hbound : ulBoardmck.toNat ≤ 0xFFFFFFFF := Nat.le_of_lt_succ ulBoardmck.isLt
  rcases tcFindMckDivisor_cases ulFreq ulMck pUldiv pUltcclks ulBoardmck with
    ⟨i, d, hsearch, hd, heq⟩ | ⟨hsearch, heq⟩
  · have hfirst := (search_eq_some_iff h hbound _ _).mp ⟨hsearch, hd⟩
    have hex : ∃ d, d ∈ exactDivisors ulBoardmck.toNat ∧ Admits ulMck.toNat ulFreq.toNat d :=
      ⟨d, List.mem_of_getElem? hd, hfirst.2.1⟩
    refine ⟨?_, fun i' d' hfirst' => ?_, fun hnone => absurd hex hnone⟩
    · rw [heq]
      exact ⟨fun _ => hex, fun _ => rfl⟩
    · obtain ⟨hsearch', hd'⟩ := (search_eq_some_iff h hbound _ _).mpr hfirst'
      rw [hsearch] at hsearch'
      cases hsearch'
      rw [hd] at hd'
      cases hd'
      exact heq
  · have hnone := (search_eq_none_iff h hbound _ _).mp hsearch
    refine ⟨?_, fun i d hfirst => ?_, fun _ => heq⟩
    · rw [heq]
      constructor
      · intro h01
        have hne : (0#32 : Word) ≠ 1#32 := by decide
        exact absurd h01 hne
      · rintro ⟨d, hmem, hd⟩
        exact absurd hd (hnone d hmem)
    · exact absurd hfirst.2.1 (hnone d (List.mem_of_getElem? hfirst.1))

/-- A timer at 1 kHz from the board's clock: 2 is too fine, 8 will do. -/
theorem find_mck_divisor_1kHz :
    tcFindMckDivisor 1000#32 150000000#32 (some 0#32) (some 0#32) boardMck =
      (1#32, some 8#32, some 1#32) := by
  have hboard : 65536 ≤ boardMck.toNat := by decide
  refine (find_mck_divisor_correct hboard 1000#32 150000000#32 (some 0#32) (some 0#32)).2.1 1 8 ?_
  refine ⟨by decide, by decide, fun j d hj hd => ?_⟩
  obtain rfl : j = 0 := by omega
  cases hd
  decide

end CanNet
