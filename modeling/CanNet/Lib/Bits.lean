import Mathlib.Tactic.Common

/-!
# CanNet.Lib.Bits

Register words as bit vectors.

* `has r m`  — the truth value a C program gives `r & m`; `or_`, `clear` lemmas say how it
  reacts to setting and clearing other bits.
* `field lo len w` / `setField lo w x` — reading and writing one bit field of a word.
-/

namespace CanNet
namespace Bits

variable {w : Nat}

/-- The truth value of the C condition `r & m`. -/
def has (r m : BitVec w) : Bool := (r &&& m) != 0#w

theorem has_eq_true {r m : BitVec w} : has r m = true ↔ r &&& m ≠ 0#w := by
  simp [has]

theorem has_eq_false {r m : BitVec w} : has r m = false ↔ r &&& m = 0#w := by
  simp [has]

@[simp] theorem has_zero (m : BitVec w) : has 0#w m = false := by simp [has]

/-- Setting `a` makes every nonzero part of `a` visible. -/
theorem has_or_self {r a : BitVec w} (h : a ≠ 0#w) : has (r ||| a) a = true := by
  rw [has_eq_true]
  have e : (r ||| a) &&& a = a := by
    ext i hi
    cases h : a[i] <;> simp [h]
  rwa [e]

theorem has_or_of_disjoint {r a b : BitVec w} (h : a &&& b = 0#w) :
    has (r ||| a) b = has r b := by
  have e : (r ||| a) &&& b = r &&& b := by
    rw [BitVec.and_comm, BitVec.and_or_distrib_left]
    rw [BitVec.and_comm b a, h, BitVec.or_zero, BitVec.and_comm]
  simp [has, e]

theorem has_or (r a b : BitVec w) : has (r ||| a) b = (has r b || has a b) := by
  have e : (r ||| a) &&& b = (r &&& b) ||| (a &&& b) := by
    rw [BitVec.and_comm, BitVec.and_or_distrib_left, BitVec.and_comm b r, BitVec.and_comm b a]
  cases h1 : has r b <;> cases h2 : has a b <;> simp_all [has, BitVec.or_eq_zero_iff]

@[simp] theorem has_clear_self (r a : BitVec w) : has (r &&& ~~~a) a = false := by
  rw [has_eq_false, BitVec.and_assoc]
  simp

theorem has_clear_of_disjoint {r a b : BitVec w} (h : a &&& b = 0#w) :
    has (r &&& ~~~a) b = has r b := by
  have e : (r &&& ~~~a) &&& b = r &&& b := by
    ext i hi
    have hi' : (a[i] && b[i]) = false := by
      rw [← BitVec.getElem_and, h, BitVec.getElem_zero]
    rw [BitVec.getElem_and, BitVec.getElem_and, BitVec.getElem_and, BitVec.getElem_not]
    cases r[i] <;> cases ha : a[i] <;> cases hb : b[i] <;> simp_all
  simp [has, e]

/-- Clearing bits never makes a condition true. -/
theorem has_of_has_clear {r a b : BitVec w} (h : has (r &&& ~~~a) b = true) : has r b = true := by
  rw [has_eq_true] at h ⊢
  intro hz
  apply h
  rw [BitVec.and_assoc, BitVec.and_comm (~~~a), ← BitVec.and_assoc, hz]
  simp

/-- Clearing a word clears each of its parts. -/
theorem has_clear_of_part {r a b : BitVec w} (h : a &&& b = b) : has (r &&& ~~~a) b = false := by
  rw [has_eq_false, BitVec.and_assoc]
  have e : ~~~a &&& b = 0#w := by
    rw [← h, ← BitVec.and_assoc, BitVec.and_comm (~~~a)]
    simp
  rw [e]
  simp

theorem has_or_mask (r a b : BitVec w) : has r (a ||| b) = (has r a || has r b) := by
  have h := has_or a b r
  simpa only [has, BitVec.and_comm r] using h

theorem clear_none (r : BitVec w) : r &&& ~~~0#w = r := by
  rw [BitVec.not_zero, BitVec.and_allOnes]

/-- Clearing `a` only where it is visible comes to clearing it. -/
theorem clear_if_has (r a : BitVec w) : r &&& ~~~(if has r a then a else 0#w) = r &&& ~~~a := by
  cases h : has r a with
  | true => rfl
  | false =>
    have hz : r &&& a = 0#w := has_eq_false.mp h
    ext i hi
    have hbit : (r[i] && a[i]) = false := by
      rw [← BitVec.getElem_and, hz, BitVec.getElem_zero]
    cases hr : r[i] <;> cases ha : a[i] <;> simp_all

theorem clear_or_congr {r a a' b b' : BitVec w} (ha : r &&& ~~~a = r &&& ~~~a')
    (hb : r &&& ~~~b = r &&& ~~~b') : r &&& ~~~(a ||| b) = r &&& ~~~(a' ||| b') := by
  have e : ∀ x y : BitVec w, r &&& ~~~(x ||| y) = (r &&& ~~~x) &&& (r &&& ~~~y) := by
    intro x y
    ext i hi
    simp only [BitVec.getElem_and, BitVec.getElem_not, BitVec.getElem_or]
    cases r[i] <;> simp
  rw [e, e, ha, hb]

/-- Of a word with nothing outside `a` and `b`, clearing `a` leaves the part in `b`. -/
theorem clear_eq_and {r a b : BitVec w} (h : r &&& ~~~(a ||| b) = 0#w) (hd : a &&& b = 0#w) :
    r &&& ~~~a = r &&& b := by
  ext i hi
  have hout : (r[i] && !(a[i] || b[i])) = false := by
    rw [← BitVec.getElem_or, ← BitVec.getElem_not, ← BitVec.getElem_and, h, BitVec.getElem_zero]
  have hdis : (a[i] && b[i]) = false := by
    rw [← BitVec.getElem_and, hd, BitVec.getElem_zero]
  simp only [BitVec.getElem_and, BitVec.getElem_not]
  cases hr : r[i] <;> cases ha : a[i] <;> cases hb : b[i] <;> simp_all

/-- Clearing a bit that is set makes the word smaller. -/
theorem clear_lt {r a : BitVec w} (h : has r a = true) : (r &&& ~~~a).toNat < r.toNat := by
  have hle : (r &&& ~~~a).toNat ≤ r.toNat := by
    rw [BitVec.toNat_and]; exact Nat.and_le_left
  refine Nat.lt_of_le_of_ne hle fun he => ?_
  have e : r &&& ~~~a = r := BitVec.eq_of_toNat_eq he
  have hc := has_clear_self r a
  rw [e, h] at hc
  cases hc

/-- A one-bit mask reads one bit. -/
theorem has_twoPow (r : BitVec w) (i : Nat) : has r (1#w <<< i) = r.getLsbD i := by
  by_cases hi : i < w
  · have e : r &&& (1#w <<< i) = if r.getLsbD i then 1#w <<< i else 0#w := by
      rw [← BitVec.twoPow_eq]
      exact BitVec.and_twoPow r i
    have hne : (1#w <<< i) ≠ 0#w := by
      intro h
      have := congrArg (fun v : BitVec w => v.getLsbD i) h
      simp [hi] at this
    cases h : r.getLsbD i
    · rw [has_eq_false, e, h]; rfl
    · rw [has_eq_true, e, h]; exact hne
  · have e : r &&& (1#w <<< i) = 0#w := by
      have : (1#w <<< i) = 0#w := by
        ext j hj
        simp
        omega
      simp [this]
    rw [has_eq_false.mpr e]
    simp [BitVec.getLsbD_of_ge r i (by omega)]

theorem oneBit_disjoint {i j : Nat} (h : i ≠ j) : (1#w <<< i) &&& (1#w <<< j) = 0#w := by
  rw [← has_eq_false, has_twoPow, BitVec.getLsbD_shiftLeft, BitVec.getLsbD_one]
  by_cases hj : j < i
  · simp [hj]
  · simp [show j - i ≠ 0 by omega]

theorem has_or_oneBit (r : BitVec w) {i j : Nat} (hj : j < w) :
    has (r ||| 1#w <<< i) (1#w <<< j) = (has r (1#w <<< j) || decide (j = i)) := by
  by_cases h : j = i
  · subst h
    rw [has_or_self]
    · simp
    · intro hz
      have := congrArg (fun v : BitVec w => v.getLsbD j) hz
      simp [hj] at this
  · rw [has_or_of_disjoint (oneBit_disjoint (Ne.symm h))]
    simp [h]

theorem has_clear_oneBit (r : BitVec w) {i j : Nat} :
    has (r &&& ~~~(1#w <<< i)) (1#w <<< j) = (has r (1#w <<< j) && decide (j ≠ i)) := by
  by_cases h : j = i
  · subst h
    rw [has_clear_self]
    simp
  · rw [has_clear_of_disjoint (oneBit_disjoint (Ne.symm h))]
    simp [h]

/-! ## Bit fields -/

/-- The `len` bits of `r` from bit `lo` up. -/
def field (lo len : Nat) (r : BitVec w) : BitVec len := r.extractLsb' lo len

/-- `r` with the `len` bits from bit `lo` up replaced by `x`. -/
def setField {len : Nat} (lo : Nat) (r : BitVec w) (x : BitVec len) : BitVec w :=
  (r &&& ~~~((BitVec.allOnes len).setWidth w <<< lo)) ||| (x.setWidth w <<< lo)

theorem getLsbD_field (lo len : Nat) (r : BitVec w) (i : Nat) :
    (field lo len r).getLsbD i = (decide (i < len) && r.getLsbD (lo + i)) := by
  simp [field]

theorem getLsbD_setField {len : Nat} (lo : Nat) (r : BitVec w) (x : BitVec len) (i : Nat) :
    (setField lo r x).getLsbD i =
      if i < w ∧ lo ≤ i ∧ i < lo + len then x.getLsbD (i - lo) else r.getLsbD i := by
  simp only [setField, BitVec.getLsbD_or, BitVec.getLsbD_and, BitVec.getLsbD_not,
    BitVec.getLsbD_shiftLeft, BitVec.getLsbD_setWidth, BitVec.getLsbD_allOnes]
  by_cases hw : i < w
  · by_cases hl : i < lo
    · have hout : ¬ (i < w ∧ lo ≤ i ∧ i < lo + len) := fun h => Nat.not_le.mpr hl h.2.1
      rw [if_neg hout]
      simp [hw, hl]
    · by_cases hh : i < lo + len
      · have h1 : i - lo < len := by omega
        have h2 : i - lo < w := by omega
        have h3 : lo ≤ i := by omega
        simp [hw, hl, hh, h1, h2, h3]
      · have h1 : ¬ i - lo < len := by omega
        have h2 : x.getLsbD (i - lo) = false := BitVec.getLsbD_of_ge _ _ (by omega)
        simp [hw, hl, hh, h1, h2]
  · have : r.getLsbD i = false := BitVec.getLsbD_of_ge _ _ (by omega)
    simp [hw, this]

theorem field_setField_same {len : Nat} (lo : Nat) (r : BitVec w) (x : BitVec len)
    (h : lo + len ≤ w) : field lo len (setField lo r x) = x := by
  apply BitVec.eq_of_getLsbD_eq
  intro i hi
  rw [getLsbD_field, getLsbD_setField]
  simp [hi, show lo + i < w by omega]

/-- Reading the low bits of a field that has just been written. -/
theorem field_setField_part {len len' : Nat} (lo : Nat) (r : BitVec w) (x : BitVec len)
    (h : lo + len ≤ w) (h' : len' ≤ len) : field lo len' (setField lo r x) = field 0 len' x := by
  apply BitVec.eq_of_getLsbD_eq
  intro i hi
  rw [getLsbD_field, getLsbD_field, getLsbD_setField]
  rw [if_pos (by omega)]
  simp

theorem field_setField_disjoint {len : Nat} (lo : Nat) (r : BitVec w) (x : BitVec len)
    (lo' len' : Nat) (h : lo' + len' ≤ lo ∨ lo + len ≤ lo') :
    field lo' len' (setField lo r x) = field lo' len' r := by
  apply BitVec.eq_of_getLsbD_eq
  intro i hi
  rw [getLsbD_field, getLsbD_field, getLsbD_setField]
  rw [if_neg (by omega)]

end Bits
end CanNet
