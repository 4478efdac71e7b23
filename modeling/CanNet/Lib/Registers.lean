import CanNet.Lib.Bits

/-!
# CanNet.Lib.Registers

Registers made of fields, and registers whose bits are not all written alike.

`placed` puts a value into a field and `fieldOf` reads it back: `fieldOf_placed` and `fieldOf_skip`
read a field of a word that was put together from several.

A `Protection` sorts the bits of a register: `free` ones take what is written; `locked` ones do so
only while the register is open; `clearable` ones can be cleared at any time and set while it is open;
the others are read-only. `Protection.write` is the register after a write, and the `has_write_`
lemmas say what a write does to each sort.
-/

namespace CanNet
namespace Bits

variable {w : Nat}

/-! ## Masks -/

theorem has_or_of_part {r a b : BitVec w} (h : a &&& b = b) (hb : b ≠ 0#w) :
    has (r ||| a) b = true := by
  rw [has_or, Bool.or_eq_true]
  right
  rw [has_eq_true, h]
  exact hb

theorem has_and_of_part {r a b : BitVec w} (h : a &&& b = b) : has (r &&& a) b = has r b := by
  rw [has, has, BitVec.and_assoc, h]

theorem has_and_of_disjoint {r a b : BitVec w} (h : a &&& b = 0#w) : has (r &&& a) b = false := by
  rw [has_eq_false, BitVec.and_assoc, h, BitVec.and_zero]

/-! ## Fields

A header gives a field by its mask, unshifted, and its position. -/

/-- The field with a value in it, and nothing else. -/
def placed (mask : BitVec w) (pos : Nat) (value : BitVec w) : BitVec w :=
  (mask <<< pos) &&& (value <<< pos)

def fieldOf (mask : BitVec w) (pos : Nat) (r : BitVec w) : Nat := ((r >>> pos) &&& mask).toNat

theorem getLsbD_of_fit {mask : BitVec w} {pos : Nat} (hfit : (mask <<< pos) >>> pos = mask) (i : Nat) :
    (decide (pos + i < w) && mask.getLsbD i) = mask.getLsbD i := by
  have hbit := congrArg (fun r : BitVec w => r.getLsbD i) hfit
  simp only [BitVec.getLsbD_ushiftRight, BitVec.getLsbD_shiftLeft] at hbit
  simpa using hbit

theorem fieldOf_eq {mask : BitVec w} {pos : Nat} (hfit : (mask <<< pos) >>> pos = mask) (r : BitVec w) :
    fieldOf mask pos r = ((r &&& (mask <<< pos)) >>> pos).toNat := by
  rw [fieldOf]
  congr 1
  ext i hi
  have hmask := getLsbD_of_fit hfit i
  simp only [← BitVec.getLsbD_eq_getElem, BitVec.getLsbD_and, BitVec.getLsbD_ushiftRight,
    BitVec.getLsbD_shiftLeft, Nat.add_sub_cancel_left, show ¬ pos + i < pos by omega, decide_false,
    Bool.not_false, Bool.and_true, hmask]

theorem placed_shift {mask : BitVec w} {pos : Nat} (hfit : (mask <<< pos) >>> pos = mask) (v : BitVec w) :
    placed mask pos v >>> pos = v &&& mask := by
  ext i hi
  have hmask := getLsbD_of_fit hfit i
  simp only [placed, ← BitVec.getLsbD_eq_getElem, BitVec.getLsbD_and, BitVec.getLsbD_ushiftRight,
    BitVec.getLsbD_shiftLeft, Nat.add_sub_cancel_left, show ¬ pos + i < pos by omega, decide_false,
    Bool.not_false, Bool.and_true, hmask]
  cases hb : mask.getLsbD i with
  | false => simp
  | true =>
    rw [hb, Bool.and_true] at hmask
    simp [hmask]

theorem fieldOf_placed {mask c : BitVec w} {pos : Nat} (v : BitVec w) (hfit : (mask <<< pos) >>> pos = mask)
    (hc : c &&& (mask <<< pos) = 0#w) :
    fieldOf mask pos (placed mask pos v ||| c) = (v &&& mask).toNat := by
  have hown : placed mask pos v &&& (mask <<< pos) = placed mask pos v := by
    rw [placed, BitVec.and_comm, ← BitVec.and_assoc, BitVec.and_self]
  rw [fieldOf_eq hfit, BitVec.and_or_distrib_right, hc, BitVec.or_zero, hown, placed_shift hfit]

theorem fieldOf_skip {mask other c : BitVec w} {pos low : Nat} (v : BitVec w)
    (hfit : (mask <<< pos) >>> pos = mask) (h : (other <<< low) &&& (mask <<< pos) = 0#w) :
    fieldOf mask pos (placed other low v ||| c) = fieldOf mask pos c := by
  have hother : placed other low v &&& (mask <<< pos) = 0#w := by
    rw [placed, BitVec.and_comm (_ <<< _), BitVec.and_assoc, h, BitVec.and_zero]
  rw [fieldOf_eq hfit, fieldOf_eq hfit, BitVec.and_or_distrib_right, hother, BitVec.zero_or]

/-! ## Write protection -/

structure Protection (w : Nat) where
  free : BitVec w
  locked : BitVec w
  clearable : BitVec w
  free_locked : free &&& locked = 0#w
  free_clearable : free &&& clearable = 0#w
  locked_clearable : locked &&& clearable = 0#w

namespace Protection

variable (p : Protection w)

/-- `v` is written over `r`. -/
def write (opened : Bool) (v r : BitVec w) : BitVec w :=
  (v &&& p.free) ||| ((if opened then v else r) &&& p.locked) |||
    ((if opened then v else r &&& v) &&& p.clearable) |||
    (r &&& ~~~(p.free ||| p.locked ||| p.clearable))

/-- No bit is of two sorts. -/
theorem disjoint_at (i : Nat) :
    (p.free.getLsbD i && p.locked.getLsbD i) = false ∧
      (p.free.getLsbD i && p.clearable.getLsbD i) = false ∧
      (p.locked.getLsbD i && p.clearable.getLsbD i) = false := by
  refine ⟨?_, ?_, ?_⟩
  · rw [← BitVec.getLsbD_and, p.free_locked, BitVec.getLsbD_zero]
  · rw [← BitVec.getLsbD_and, p.free_clearable, BitVec.getLsbD_zero]
  · rw [← BitVec.getLsbD_and, p.locked_clearable, BitVec.getLsbD_zero]

variable {p} {opened : Bool} {v r : BitVec w} {i : Nat}

theorem has_write_free (h : p.free.getLsbD i = true) :
    has (p.write opened v r) (1#w <<< i) = has v (1#w <<< i) := by
  obtain ⟨hl, hc, _⟩ := p.disjoint_at i
  rw [h, Bool.true_and] at hl hc
  rw [has_twoPow, has_twoPow]
  simp [write, h, hl, hc]

theorem has_write_locked (h : p.locked.getLsbD i = true) :
    has (p.write opened v r) (1#w <<< i) =
      if opened then has v (1#w <<< i) else has r (1#w <<< i) := by
  obtain ⟨hf, _, hc⟩ := p.disjoint_at i
  rw [h, Bool.and_true] at hf
  rw [h, Bool.true_and] at hc
  rw [has_twoPow, has_twoPow, has_twoPow]
  cases opened <;> simp [write, h, hf, hc]

theorem has_write_clearable (h : p.clearable.getLsbD i = true) :
    has (p.write opened v r) (1#w <<< i) =
      (has v (1#w <<< i) && (opened || has r (1#w <<< i))) := by
  obtain ⟨_, hf, hl⟩ := p.disjoint_at i
  rw [h, Bool.and_true] at hf hl
  rw [has_twoPow, has_twoPow, has_twoPow]
  cases opened
  · simp [write, h, hf, hl, Bool.and_comm]
  · simp [write, h, hf, hl]

end Protection
end Bits
end CanNet
