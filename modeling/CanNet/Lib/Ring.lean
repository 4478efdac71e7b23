import Mathlib.Logic.Function.Basic
import Mathlib.Tactic.Common

/-!
# CanNet.Lib.Ring

A ring buffer of `n` cells with a put index, a get index and a fill level, as a hardware FIFO
keeps them.

* `arrive`  — an element is placed at the put index; a full ring either overwrites its oldest
  element or drops the new one.
* `ack k`   — the reader reports that it is done with cell `k`.
* `clear`   — reset.

`contents` is the queue the three numbers describe, oldest element first. As long as they agree
(`Coherent`) and the reader acknowledges the get index, the ring is that queue:
`contents_arrive`, `contents_ack`.
-/

namespace CanNet

structure Ring (α : Type) (n : Nat) where
  cells : Nat → α
  put : Nat
  get : Nat
  fill : Nat
  put_lt : put < n
  get_lt : get < n
  fill_le : fill ≤ n

namespace Ring

variable {α : Type} {n : Nat}

theorem pos (r : Ring α n) : 0 < n := Nat.lt_of_le_of_lt (Nat.zero_le _) r.put_lt

/-- The index after `i`. -/
def next (n i : Nat) : Nat := (i + 1) % n

theorem next_lt (h : 0 < n) (i : Nat) : next n i < n := Nat.mod_lt _ h

def arrive (overwrite : Bool) (x : α) (r : Ring α n) : Ring α n :=
  if h : r.fill < n then
    { cells := Function.update r.cells r.put x, put := next n r.put, get := r.get,
      fill := r.fill + 1, put_lt := next_lt r.pos _, get_lt := r.get_lt, fill_le := h }
  else if overwrite then
    { cells := Function.update r.cells r.put x, put := next n r.put, get := next n r.get,
      fill := r.fill, put_lt := next_lt r.pos _, get_lt := next_lt r.pos _, fill_le := r.fill_le }
  else r

def ack (k : Nat) (r : Ring α n) : Ring α n :=
  { r with get := next n k, fill := r.fill - 1, get_lt := next_lt r.pos _,
           fill_le := Nat.le_trans (Nat.sub_le _ _) r.fill_le }

def clear (r : Ring α n) : Ring α n :=
  { r with put := 0, get := 0, fill := 0, put_lt := r.pos, get_lt := r.pos,
           fill_le := Nat.zero_le _ }

/-- The unread elements, oldest first. -/
def contents (r : Ring α n) : List α :=
  (List.range r.fill).map fun i => r.cells ((r.get + i) % n)

/-- The put index is where the fill level says the queue ends. -/
def Coherent (r : Ring α n) : Prop := r.put = (r.get + r.fill) % n

@[simp] theorem length_contents (r : Ring α n) : r.contents.length = r.fill := by
  simp [contents]

theorem contents_eq_nil (r : Ring α n) : r.contents = [] ↔ r.fill = 0 := by
  rw [← List.length_eq_zero_iff, length_contents]

theorem getElem?_contents (r : Ring α n) {i : Nat} (h : i < r.fill) :
    r.contents[i]? = some (r.cells ((r.get + i) % n)) := by
  simp [contents, h]

/-- The cell at the get index is the oldest unread element. -/
theorem head_contents (r : Ring α n) (h : 0 < r.fill) :
    r.contents.head? = some (r.cells r.get) := by
  rw [List.head?_eq_getElem?, getElem?_contents r h, Nat.add_zero, Nat.mod_eq_of_lt r.get_lt]

theorem contents_cons (r : Ring α n) (h : 0 < r.fill) :
    r.contents = r.cells r.get :: r.contents.tail := by
  have hh := head_contents r h
  cases hc : r.contents with
  | nil => rw [hc] at hh; cases hh
  | cons a l => rw [hc] at hh; cases hh; rfl

/-- Below the depth the modulo wraps at most once. -/
theorem slot_eq {a i : Nat} (ha : a < n) (hi : i ≤ n) :
    (a + i) % n = if a + i < n then a + i else a + i - n := by
  split
  · exact Nat.mod_eq_of_lt ‹_›
  · rw [Nat.mod_eq_sub_mod (by omega)]
    exact Nat.mod_eq_of_lt (by omega)

theorem slot_ne {a i j : Nat} (ha : a < n) (hi : i < n) (hj : j < n) (h : i ≠ j) :
    (a + i) % n ≠ (a + j) % n := by
  rw [slot_eq ha (by omega), slot_eq ha (by omega)]
  split <;> split <;> omega

theorem next_slot (a i : Nat) : (next n a + i) % n = (a + (i + 1)) % n := by
  have : a + (i + 1) = a + 1 + i := by omega
  rw [next, Nat.mod_add_mod, this]

/-! ## Fields after each operation -/

theorem arrive_of_lt {b : Bool} {x : α} {r : Ring α n} (h : r.fill < n) :
    (r.arrive b x).cells = Function.update r.cells r.put x ∧ (r.arrive b x).put = next n r.put ∧
      (r.arrive b x).get = r.get ∧ (r.arrive b x).fill = r.fill + 1 := by
  simp [arrive, h]

theorem arrive_of_full {x : α} {r : Ring α n} (h : r.fill = n) :
    (r.arrive true x).cells = Function.update r.cells r.put x ∧
      (r.arrive true x).put = next n r.put ∧ (r.arrive true x).get = next n r.get ∧
      (r.arrive true x).fill = r.fill := by
  simp [arrive, h]

@[simp] theorem ack_get (k : Nat) (r : Ring α n) : (r.ack k).get = next n k := rfl
@[simp] theorem ack_put (k : Nat) (r : Ring α n) : (r.ack k).put = r.put := rfl
@[simp] theorem ack_fill (k : Nat) (r : Ring α n) : (r.ack k).fill = r.fill - 1 := rfl
@[simp] theorem ack_cells (k : Nat) (r : Ring α n) : (r.ack k).cells = r.cells := rfl
@[simp] theorem clear_get (r : Ring α n) : r.clear.get = 0 := rfl
@[simp] theorem clear_put (r : Ring α n) : r.clear.put = 0 := rfl
@[simp] theorem clear_fill (r : Ring α n) : r.clear.fill = 0 := rfl

theorem arrive_fill_pos {x : α} {r : Ring α n} : 0 < (r.arrive true x).fill := by
  rcases Nat.lt_or_ge r.fill n with h | h
  · rw [(arrive_of_lt h).2.2.2]; omega
  · have hn := r.pos
    have hf : r.fill = n := Nat.le_antisymm r.fill_le h
    rw [(arrive_of_full hf).2.2.2]; omega

/-! ## The ring is a queue -/

theorem coherent_clear (r : Ring α n) : r.clear.Coherent := by
  simp [Coherent]

theorem coherent_arrive {b : Bool} {x : α} {r : Ring α n} (hc : r.Coherent) (h : r.fill < n) :
    (r.arrive b x).Coherent := by
  obtain ⟨_, hp, hg, hf⟩ := arrive_of_lt (b := b) (x := x) h
  rw [Coherent, hp, hg, hf, hc, next, Nat.mod_add_mod, Nat.add_assoc]

theorem coherent_ack {r : Ring α n} (hc : r.Coherent) (h : 0 < r.fill) :
    (r.ack r.get).Coherent := by
  rw [Coherent, ack_get, ack_fill, ack_put, hc, next_slot,
    show r.fill - 1 + 1 = r.fill by omega]

/-- An arrival below the depth appends to the queue. -/
theorem contents_arrive {b : Bool} {x : α} {r : Ring α n} (hc : r.Coherent) (h : r.fill < n) :
    (r.arrive b x).contents = r.contents ++ [x] := by
  obtain ⟨hcells, _, hg, hf⟩ := arrive_of_lt (b := b) (x := x) h
  rw [contents, hf, List.range_succ, List.map_append, hcells, hg]
  congr 1
  · apply List.map_congr_left
    intro i hi
    have hi' : i < r.fill := List.mem_range.mp hi
    apply Function.update_of_ne
    rw [hc]
    exact slot_ne r.get_lt (by omega) h (by omega)
  · rw [hc]; simp

/-- Acknowledging the get index removes the oldest element. -/
theorem contents_ack {r : Ring α n} (h : 0 < r.fill) :
    (r.ack r.get).contents = r.contents.tail := by
  apply List.ext_getElem?
  intro i
  rw [List.getElem?_tail]
  by_cases hi : i + 1 < r.fill
  · rw [getElem?_contents _ (by simp; omega), getElem?_contents _ hi]
    simp only [ack_cells, ack_get]
    rw [next_slot]
  · rw [List.getElem?_eq_none (by simp; omega), List.getElem?_eq_none (by simp; omega)]

end Ring
end CanNet
