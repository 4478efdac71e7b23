import Mathlib.Order.Lattice
import Mathlib.Tactic.Common

/-!
# CanNet.Lib.RangeSearch

Linear search for the first of several ranges `[low a, high a]` that contains a value, as clock
and prescaler tables are searched. The search gives up at the first range that lies below the value.

* `rangeSearch` — the search, with its early exit.
* `rangeSearch_eq_findIdx?` — the early exit costs nothing when the first range reaches highest and
  begins no higher than any other ends.
-/

namespace CanNet
namespace RangeSearch

variable {α β : Type} [LinearOrder β] (low high : α → β) (x : β)

def contains (a : α) : Bool := decide (low a ≤ x) && decide (x ≤ high a)

/-- The index of the first range that contains `x`, unless a range below `x` comes before it. -/
def rangeSearch : List α → Option Nat
  | [] => none
  | a :: l =>
    if high a < x then none
    else if low a ≤ x then some 0
    else (rangeSearch l).map (· + 1)

variable {low high x}

theorem contains_iff {a : α} : contains low high x a = true ↔ low a ≤ x ∧ x ≤ high a := by
  simp [contains]

/-- With no range below `x` the search never gives up. -/
theorem rangeSearch_of_le {l : List α} (h : ∀ a, a ∈ l → x ≤ high a) :
    rangeSearch low high x l = l.findIdx? (contains low high x) := by
  induction l with
  | nil => rfl
  | cons a l ih =>
    have ha : x ≤ high a := h a List.mem_cons_self
    rw [rangeSearch, if_neg (not_lt.mpr ha), List.findIdx?_cons]
    by_cases hlow : low a ≤ x
    · rw [if_pos hlow, if_pos (contains_iff.mpr ⟨hlow, ha⟩)]
    · rw [if_neg hlow, if_neg fun hc => hlow (contains_iff.mp hc).1,
        ih fun b hb => h b (List.mem_cons_of_mem a hb)]

/-- Either `x` lies above the first range, and then above all of them, or it lies below its end, and
then below no other. -/
theorem rangeSearch_eq_findIdx? {a : α} {l : List α} (hwide : ∀ b, b ∈ l → high b ≤ high a)
    (hgap : ∀ b, b ∈ l → low a ≤ high b) :
    rangeSearch low high x (a :: l) = (a :: l).findIdx? (contains low high x) := by
  by_cases habove : high a < x
  · rw [rangeSearch, if_pos habove, eq_comm, List.findIdx?_eq_none_iff]
    intro b hb
    have hle : high b ≤ high a := by
      rcases List.mem_cons.mp hb with rfl | hb
      · exact le_refl _
      · exact hwide b hb
    exact Bool.eq_false_iff.mpr fun hc =>
      absurd (contains_iff.mp hc).2 (not_le.mpr (lt_of_le_of_lt hle habove))
  · rw [rangeSearch, if_neg habove, List.findIdx?_cons]
    by_cases hlow : low a ≤ x
    · rw [if_pos hlow, if_pos (contains_iff.mpr ⟨hlow, not_lt.mp habove⟩)]
    · rw [if_neg hlow, if_neg fun hc => hlow (contains_iff.mp hc).1,
        rangeSearch_of_le fun b hb => le_trans (le_of_lt (not_le.mp hlow)) (hgap b hb)]

end RangeSearch
end CanNet
