import CanNet.Handler
import CanNet.Lib.Loops
import Mathlib.Data.Prod.Lex

/-!
# CanNet.RxScan

The two nested loops of the Rx buffer branch step by step, for any number of buffers and any element
data size.

The print loop leaves the shared index at the data size, so with more buffers than data bytes the
outer loop is sent back. `scan_ends` says that the loops stop all the same, with what `rxBufferScan`
computes: a step back is paid for with a new-data flag.
-/

namespace CanNet

open Loops

/-! ## The loops -/

/-- The loop whose condition is tested next. -/
inductive ScanLoop where
  | buffers
  | print
deriving DecidableEq

/-- `copied` are the buffers copied out so far, in order. The index exceeds neither bound by more than
one, so its width does not matter. -/
structure ScanState where
  loop : ScanLoop
  i : Nat
  newData : NewData
  copied : List Nat

def scanStep (num size : Nat) (t : ScanState) : Option ScanState :=
  match t.loop with
  | .buffers =>
    if t.i < num then
      if mcanRxGetBufferStatus t.newData t.i then
        some { loop := .print, i := 0, newData := mcanRxClearBufferStatus t.newData t.i
               copied := t.copied ++ [t.i] }
      else some { t with i := t.i + 1 }
    else none
  | .print =>
    if t.i < size then some { t with i := t.i + 1 }
    -- the print loop is left and the outer loop increments the same index
    else some { t with loop := .buffers, i := t.i + 1 }

def scanStart (nd : NewData) : ScanState :=
  { loop := .buffers, i := 0, newData := nd, copied := [] }

/-- What one step can be. -/
inductive ScanMove (num size : Nat) (t : ScanState) : ScanState → Prop
  | service (hloop : t.loop = .buffers) (hi : t.i < num)
      (hflag : mcanRxGetBufferStatus t.newData t.i = true) :
      ScanMove num size t
        { loop := .print, i := 0, newData := mcanRxClearBufferStatus t.newData t.i
          copied := t.copied ++ [t.i] }
  | skip (hloop : t.loop = .buffers) (hi : t.i < num)
      (hflag : mcanRxGetBufferStatus t.newData t.i = false) :
      ScanMove num size t { t with i := t.i + 1 }
  | print (hloop : t.loop = .print) (hi : t.i < size) :
      ScanMove num size t { t with i := t.i + 1 }
  | leave (hloop : t.loop = .print) (hi : size ≤ t.i) :
      ScanMove num size t { t with loop := .buffers, i := t.i + 1 }

theorem scanStep_move {num size : Nat} {t t' : ScanState} (h : scanStep num size t = some t') :
    ScanMove num size t t' := by
  obtain ⟨loop, i, nd, copied⟩ := t
  cases loop with
  | buffers =>
    simp only [scanStep] at h
    by_cases hi : i < num
    · rw [if_pos hi] at h
      cases hflag : mcanRxGetBufferStatus nd i with
      | true =>
        rw [hflag, if_pos rfl] at h
        cases h
        exact .service rfl hi hflag
      | false =>
        rw [hflag, if_neg Bool.false_ne_true] at h
        cases h
        exact .skip rfl hi hflag
    · rw [if_neg hi] at h
      cases h
  | print =>
    simp only [scanStep] at h
    by_cases hi : i < size
    · rw [if_pos hi] at h
      cases h
      exact .print rfl hi
    · rw [if_neg hi] at h
      cases h
      exact .leave rfl (Nat.le_of_not_lt hi)

theorem scanStep_none {num size : Nat} {t : ScanState} (h : scanStep num size t = none) :
    t.loop = .buffers ∧ num ≤ t.i := by
  obtain ⟨loop, i, nd, copied⟩ := t
  cases loop with
  | buffers =>
    simp only [scanStep] at h
    by_cases hi : i < num
    · rw [if_pos hi] at h
      split at h <;> cases h
    · exact ⟨rfl, Nat.le_of_not_lt hi⟩
  | print =>
    simp only [scanStep] at h
    split at h <;> cases h

/-! ## The measure -/

/-- First the flags, then the loops still to be left, then the indices left in the current one. -/
def scanMeasure (num size : Nat) (t : ScanState) : Nat ×ₗ Nat ×ₗ Nat :=
  toLex (t.newData.ndat1.toNat + t.newData.ndat2.toNat, match t.loop with
    | .buffers => toLex (0, num - t.i)
    | .print => toLex (1, size - t.i))

theorem scanMeasure_lt {num size : Nat} {t t' : ScanState} (h : scanStep num size t = some t') :
    scanMeasure num size t' < scanMeasure num size t := by
  cases scanStep_move h with
  | service hloop hi hflag =>
    exact Prod.Lex.toLex_lt_toLex.mpr (.inl (clearBufferStatus_lt hflag))
  | skip hloop hi hflag =>
    simp only [scanMeasure, hloop]
    refine Prod.Lex.toLex_lt_toLex.mpr (.inr ⟨rfl, ?_⟩)
    refine Prod.Lex.toLex_lt_toLex.mpr (.inr ⟨rfl, ?_⟩)
    show num - (t.i + 1) < num - t.i
    omega
  | print hloop hi =>
    simp only [scanMeasure, hloop]
    refine Prod.Lex.toLex_lt_toLex.mpr (.inr ⟨rfl, ?_⟩)
    refine Prod.Lex.toLex_lt_toLex.mpr (.inr ⟨rfl, ?_⟩)
    show size - (t.i + 1) < size - t.i
    omega
  | leave hloop hi =>
    simp only [scanMeasure, hloop]
    refine Prod.Lex.toLex_lt_toLex.mpr (.inr ⟨rfl, ?_⟩)
    exact Prod.Lex.toLex_lt_toLex.mpr (.inl Nat.zero_lt_one)

/-! ## The invariant -/

/-- The flags and the buffers that the scan comes to from here. -/
def scanResult (num size : Nat) (t : ScanState) : NewData × List Nat :=
  let r := match t.loop with
    | .buffers => rxBufferScan num size t.i t.newData
    | .print => rxBufferScan num size (size + 1) t.newData
  (r.1, t.copied ++ r.2)

/-- No buffer was copied twice, all of them had their flag set, and the flags that are gone are
theirs; and what is still to come is what the scan as a whole comes to. -/
structure ScanInv (num size : Nat) (nd : NewData) (t : ScanState) : Prop where
  nodup : t.copied.Nodup
  flagged : ∀ k, k ∈ t.copied → k < num ∧ mcanRxGetBufferStatus nd k = true
  cleared : ∀ k, mcanRxGetBufferStatus t.newData k =
    (mcanRxGetBufferStatus nd k && decide (k ∉ t.copied))
  result : scanResult num size t = rxBufferScan num size 0 nd
  inPrint : t.loop = .print → t.i ≤ size

theorem scanInv_start (num size : Nat) (nd : NewData) : ScanInv num size nd (scanStart nd) where
  nodup := List.nodup_nil
  flagged k hk := absurd hk List.not_mem_nil
  cleared k := by simp [scanStart]
  result := rfl
  inPrint h := by cases h

/-- A buffer is serviced only if its flag is still set, so it was not copied before. -/
theorem ScanInv.service {num size : Nat} {nd : NewData} {t : ScanState}
    (h : ScanInv num size nd t) (hloop : t.loop = .buffers) (hi : t.i < num)
    (hflag : mcanRxGetBufferStatus t.newData t.i = true) :
    ScanInv num size nd
      { loop := .print, i := 0, newData := mcanRxClearBufferStatus t.newData t.i
        copied := t.copied ++ [t.i] } := by
  have hboth := h.cleared t.i
  rw [hflag, eq_comm, Bool.and_eq_true, decide_eq_true_eq] at hboth
  obtain ⟨hset, hnew⟩ := hboth
  refine ⟨?_, fun k hk => ?_, fun k => ?_, ?_, fun _ => Nat.zero_le size⟩
  · exact List.nodup_append.mpr ⟨h.nodup, List.nodup_singleton _, fun a ha b hb => by
      rw [List.mem_singleton.mp hb]
      exact fun hab => hnew (hab ▸ ha)⟩
  · rcases List.mem_append.mp hk with hk | hk
    · exact h.flagged k hk
    · rw [List.mem_singleton.mp hk]
      exact ⟨hi, hset⟩
  · rw [mcanRxGetBufferStatus_clear, h.cleared k, Bool.and_assoc, ← Bool.decide_and]
    simp only [List.mem_append, List.mem_singleton, not_or]
  · rw [← h.result]
    simp only [scanResult, hloop, rxBufferScan_flagged hi hflag, List.append_assoc,
      List.singleton_append]

theorem ScanInv.step {num size : Nat} {nd : NewData} {t t' : ScanState}
    (h : ScanInv num size nd t) (hs : scanStep num size t = some t') : ScanInv num size nd t' := by
  cases scanStep_move hs with
  | service hloop hi hflag => exact h.service hloop hi hflag
  | skip hloop hi hflag =>
    refine ⟨h.nodup, h.flagged, h.cleared, ?_, fun hp => ?_⟩
    · rw [← h.result]
      simp only [scanResult, hloop, rxBufferScan_clear hflag]
    · rw [hloop] at hp
      cases hp
  | print hloop hi =>
    refine ⟨h.nodup, h.flagged, h.cleared, ?_, fun _ => hi⟩
    rw [← h.result]
    simp only [scanResult, hloop]
  | leave hloop hi =>
    refine ⟨h.nodup, h.flagged, h.cleared, ?_, fun hp => by cases hp⟩
    have hend : t.i = size := Nat.le_antisymm (h.inPrint hloop) hi
    rw [← h.result]
    simp only [scanResult, hloop, hend]

/-- **The Rx buffer scan.** The nested loops end; what they leave and copy is what `rxBufferScan`
computes; no buffer is copied twice, every copied one had its flag set, and exactly the flags of the
copied buffers are cleared. -/
theorem scan_ends (num size : Nat) (nd : NewData) :
    ∃ t, Ends (scanStep num size) (scanStart nd) t ∧
      (t.newData, t.copied) = rxBufferScan num size 0 nd ∧
      t.copied.Nodup ∧
      (∀ k, k ∈ t.copied → k < num ∧ mcanRxGetBufferStatus nd k = true) ∧
      ∀ k, mcanRxGetBufferStatus t.newData k =
        (mcanRxGetBufferStatus nd k && decide (k ∉ t.copied)) := by
  obtain ⟨t, hends, hinv⟩ := ends_of_measure (scanMeasure num size)
    (fun s s' hI hs => ScanInv.step hI hs) (fun s s' _ hs => scanMeasure_lt hs)
    (scanInv_start num size nd)
  obtain ⟨hloop, hlast⟩ := scanStep_none hends.2
  refine ⟨t, hends, ?_, hinv.nodup, hinv.flagged, hinv.cleared⟩
  rw [← hinv.result]
  simp only [scanResult, hloop, rxBufferScan_past t.newData hlast, List.append_nil]

end CanNet
