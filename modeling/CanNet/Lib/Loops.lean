import Mathlib.Computability.StateTransition
import Mathlib.Order.WellFounded

/-!
# CanNet.Lib.Loops

Loops as step functions `σ → Option σ` that stop where they return `none`, as in Mathlib's
`StateTransition`.

* `Ends f s t` — from `s` the loop stops after finitely many steps, in `t`.
* `ends_of_measure` — the rule for total correctness: an invariant, and a measure in a well-founded
  order that every step lowers while the invariant holds.
-/

namespace CanNet
namespace Loops

open StateTransition (Reaches)

variable {σ α : Type} {f : σ → Option σ}

def Ends (f : σ → Option σ) (s t : σ) : Prop := Reaches f s t ∧ f t = none

theorem Ends.head {s s' t : σ} (hs : f s = some s') (h : Ends f s' t) : Ends f s t :=
  ⟨.head hs h.1, h.2⟩

theorem ends_of_measure [LT α] [WellFoundedLT α] {I : σ → Prop} (m : σ → α)
    (hkeep : ∀ s s', I s → f s = some s' → I s') (hlower : ∀ s s', I s → f s = some s' → m s' < m s)
    {s : σ} (h0 : I s) : ∃ t, Ends f s t ∧ I t := by
  revert h0
  refine (InvImage.wf m wellFounded_lt).induction (C := fun s => I s → ∃ t, Ends f s t ∧ I t) s ?_
  intro s ih hs
  cases hf : f s with
  | none => exact ⟨s, ⟨.refl, hf⟩, hs⟩
  | some s' =>
    obtain ⟨t, ht, hI⟩ := ih s' (hlower s s' hs hf) (hkeep s s' hs hf)
    exact ⟨t, ht.head hf, hI⟩

end Loops
end CanNet
