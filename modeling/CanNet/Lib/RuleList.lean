import Mathlib.Logic.Function.Basic
import Mathlib.Tactic.Common

/-!
# CanNet.Lib.RuleList

Ordered rule lists in numbered slots, as packet filters and routing tables use them: the lowest
slot whose rule applies to a key decides.

* `firstMatch n f` — the answer of the lowest slot below `n` that has one.
* `recorded ws`    — the rule each slot holds after a list of writes: the last one made to it.
* `lookup n t k`   — first match in a table of rules that each apply to one key.
-/

namespace CanNet
namespace RuleList

variable {α β κ δ : Type}

/-! ## First match -/

def firstMatch (n : Nat) (f : Nat → Option β) : Option β := (List.range n).findSome? f

theorem firstMatch_zero (f : Nat → Option β) : firstMatch 0 f = none := rfl

theorem firstMatch_succ (n : Nat) (f : Nat → Option β) :
    firstMatch (n + 1) f = (firstMatch n f).or (f n) := by
  rw [firstMatch, List.range_succ, List.findSome?_append]
  cases h : f n <;> simp [firstMatch, h]

theorem firstMatch_eq_none {n : Nat} {f : Nat → Option β} :
    firstMatch n f = none ↔ ∀ i, i < n → f i = none := by
  simp [firstMatch]

theorem firstMatch_eq_some {n : Nat} {f : Nat → Option β} {b : β} :
    firstMatch n f = some b ↔ ∃ i, i < n ∧ f i = some b ∧ ∀ j, j < i → f j = none := by
  induction n with
  | zero => simp [firstMatch_zero]
  | succ n ih =>
    rw [firstMatch_succ]
    constructor
    · intro h
      cases hn : firstMatch n f with
      | some c =>
        rw [hn] at h
        cases h
        obtain ⟨i, hi, hb, hlow⟩ := ih.mp hn
        exact ⟨i, by omega, hb, hlow⟩
      | none =>
        rw [hn] at h
        exact ⟨n, by omega, h, firstMatch_eq_none.mp hn⟩
    · rintro ⟨i, hi, hb, hlow⟩
      by_cases hin : i < n
      · rw [ih.mpr ⟨i, hin, hb, hlow⟩]
        rfl
      · obtain rfl : i = n := by omega
        rw [firstMatch_eq_none.mpr hlow]
        exact hb

theorem firstMatch_congr {n : Nat} {f g : Nat → Option β} (h : ∀ i, i < n → f i = g i) :
    firstMatch n f = firstMatch n g := by
  induction n with
  | zero => rfl
  | succ n ih =>
    rw [firstMatch_succ, firstMatch_succ, ih fun i hi => h i (by omega), h n (by omega)]

theorem firstMatch_map {γ : Type} (g : β → γ) (n : Nat) (f : Nat → Option β) :
    firstMatch n (fun i => (f i).map g) = (firstMatch n f).map g := by
  induction n with
  | zero => rfl
  | succ n ih =>
    rw [firstMatch_succ, firstMatch_succ, ih]
    cases firstMatch n f <;> rfl

/-! ## Slots and the writes made to them -/

/-- What each slot holds after the writes `ws`, oldest first. -/
def recorded (ws : List (Nat × α)) (i : Nat) : Option α :=
  (ws.reverse.find? fun w => w.1 == i).map Prod.snd

@[simp] theorem recorded_nil (i : Nat) : recorded ([] : List (Nat × α)) i = none := rfl

/-- One more write sets its own slot and no other. -/
theorem recorded_snoc (ws : List (Nat × α)) (w : Nat × α) :
    recorded (ws ++ [w]) = Function.update (recorded ws) w.1 (some w.2) := by
  funext i
  simp only [recorded, List.reverse_append, List.reverse_singleton, List.singleton_append,
    List.find?_cons]
  by_cases h : w.1 = i
  · subst h
    simp
  · rw [Function.update_of_ne (Ne.symm h), beq_eq_false_iff_ne.mpr h]
    rfl

theorem recorded_mem {ws : List (Nat × α)} {i : Nat} {a : α} (h : recorded ws i = some a) :
    (i, a) ∈ ws := by
  simp only [recorded, Option.map_eq_some_iff] at h
  obtain ⟨w, hw, rfl⟩ := h
  have hi : w.1 = i := by simpa using List.find?_some hw
  subst hi
  exact List.mem_reverse.mp (List.mem_of_find?_eq_some hw)

/-! ## Rules for one key each -/

structure Rule (κ δ : Type) where
  key : κ
  value : δ
deriving DecidableEq

variable [DecidableEq κ]

def Rule.answer (k : κ) (r : Rule κ δ) : Option δ := if r.key = k then some r.value else none

def lookup (n : Nat) (t : Nat → Option (Rule κ δ)) (k : κ) : Option δ :=
  firstMatch n fun i => (t i).bind (Rule.answer k)

theorem answer_eq_some {k : κ} {t : Option (Rule κ δ)} {d : δ} :
    t.bind (Rule.answer k) = some d ↔ t = some ⟨k, d⟩ := by
  cases t with
  | none => simp
  | some r =>
    obtain ⟨k', d'⟩ := r
    simp [Rule.answer]

theorem answer_eq_none {k : κ} {t : Option (Rule κ δ)} :
    t.bind (Rule.answer k) = none ↔ ∀ d, t ≠ some ⟨k, d⟩ := by
  constructor
  · intro h d hd
    rw [answer_eq_some.mpr hd] at h
    cases h
  · intro h
    cases ha : t.bind (Rule.answer k) with
    | none => rfl
    | some d => exact absurd (answer_eq_some.mp ha) (h d)

/-- **Lookup.** The lowest slot that holds a rule for the key decides. -/
theorem lookup_eq_some {n : Nat} {t : Nat → Option (Rule κ δ)} {k : κ} {d : δ} :
    lookup n t k = some d ↔
      ∃ i, i < n ∧ t i = some ⟨k, d⟩ ∧ ∀ j, j < i → ∀ d', t j ≠ some ⟨k, d'⟩ := by
  simp only [lookup, firstMatch_eq_some, answer_eq_some, answer_eq_none]

theorem lookup_eq_none {n : Nat} {t : Nat → Option (Rule κ δ)} {k : κ} :
    lookup n t k = none ↔ ∀ i, i < n → ∀ d, t i ≠ some ⟨k, d⟩ := by
  simp only [lookup, firstMatch_eq_none, answer_eq_none]

end RuleList
end CanNet
