import Mathlib.Tactic.Common

/-!
# CanNet.Lib.Machine

Machines driven by a list of events, over an arbitrary state and event type.

* `Machine.run`      — the state after a list of events; `none` when some event was not enabled.
* `Machine.Always`   — a property of every state a run passes through, both ends included.
* `Machine.EachStep` — a condition on the state before each step of a run.
* `Machine.only`     — the same machine with some of its steps disabled.
* `Machine.withHistory` — the same machine with a value that records what has happened so far.

`always_iff_eachStep` is the rule the exact conditions are proved with: if steps that meet `C`
keep an invariant, and a step that misses `C` breaks `P` at once, then `P` holds all along a run
exactly when every step of it meets `C`.
-/

namespace CanNet

/-- A deterministic machine. `none` means the event is not enabled in the state. -/
structure Machine (σ ε : Type) where
  step : σ → ε → Option σ

namespace Machine

variable {σ ε : Type} (M : Machine σ ε)

def run : σ → List ε → Option σ
  | s, [] => some s
  | s, e :: es =>
    match M.step s e with
    | none => none
    | some s' => run s' es

def Always (P : σ → Prop) : σ → List ε → Prop
  | s, [] => P s
  | s, e :: es => P s ∧ ∀ s', M.step s e = some s' → Always P s' es

def EachStep (C : σ → ε → Prop) : σ → List ε → Prop
  | _, [] => True
  | s, e :: es => ∀ s', M.step s e = some s' → C s e ∧ EachStep C s' es

/-- Only the events that `K` admits in the current state. -/
def only (K : σ → ε → Bool) : Machine σ ε where
  step s e := if K s e then M.step s e else none

/-- `u` updates the history with the state before the step and the event. -/
def withHistory {ω : Type} (u : ω → σ → ε → ω) : Machine (σ × ω) ε where
  step p e := (M.step p.1 e).map fun s' => (s', u p.2 p.1 e)

variable {M}

@[simp] theorem run_nil (s : σ) : M.run s [] = some s := rfl

theorem run_cons_some {s s' : σ} {e : ε} (h : M.step s e = some s') (es : List ε) :
    M.run s (e :: es) = M.run s' es := by
  simp [run, h]

theorem run_append (es fs : List ε) : ∀ s : σ,
    M.run s (es ++ fs) = (M.run s es).bind fun s' => M.run s' fs := by
  induction es with
  | nil => intro s; rfl
  | cons e es ih =>
    intro s
    simp only [List.cons_append, run]
    cases M.step s e with
    | none => rfl
    | some s' => exact ih s'

theorem always_here {P : σ → Prop} {s : σ} {es : List ε} (h : M.Always P s es) : P s := by
  cases es with
  | nil => exact h
  | cons e es => exact h.1

/-- `Always` is a statement about every prefix of the event list. -/
theorem always_iff_prefix {P : σ → Prop} {s : σ} {es : List ε} :
    M.Always P s es ↔ ∀ pre, pre <+: es → ∀ s', M.run s pre = some s' → P s' := by
  induction es generalizing s with
  | nil =>
    constructor
    · intro h pre hp s' hr
      rw [List.prefix_nil.mp hp] at hr
      cases hr; exact h
    · intro h; exact h [] (List.prefix_refl _) s rfl
  | cons e es ih =>
    constructor
    · rintro ⟨h0, hrest⟩ pre hp s' hr
      cases pre with
      | nil => cases hr; exact h0
      | cons f pre =>
        obtain ⟨rfl, hp'⟩ := List.cons_prefix_cons.mp hp
        simp only [run] at hr
        split at hr
        · cases hr
        · rename_i s1 h1
          exact ih.mp (hrest s1 h1) pre hp' s' hr
    · intro h
      refine ⟨h [] List.nil_prefix s rfl, fun s1 h1 => ih.mpr ?_⟩
      intro pre hp s' hr
      refine h (e :: pre) (List.cons_prefix_cons.mpr ⟨rfl, hp⟩) s' ?_
      rw [run_cons_some h1]; exact hr

theorem always_mono {P Q : σ → Prop} (h : ∀ s, P s → Q s) {es : List ε} :
    ∀ {s : σ}, M.Always P s es → M.Always Q s es := by
  induction es with
  | nil => intro s hp; exact h s hp
  | cons e es ih =>
    rintro s ⟨hp, hrest⟩
    exact ⟨h s hp, fun s' hs => ih (hrest s' hs)⟩

/-- Along an invariant that the steps meeting `C` keep, `C` may be replaced by what follows. -/
theorem eachStep_imp {I : σ → Prop} {C D : σ → ε → Prop}
    (hstep : ∀ s e s', I s → C s e → M.step s e = some s' → D s e ∧ I s') {es : List ε} :
    ∀ {s : σ}, I s → M.EachStep C s es → M.EachStep D s es := by
  induction es with
  | nil => intro s _ _; trivial
  | cons e es ih =>
    intro s hI hC s' hs
    obtain ⟨hc, hrest⟩ := hC s' hs
    obtain ⟨hd, hI'⟩ := hstep s e s' hI hc hs
    exact ⟨hd, ih hI' hrest⟩

theorem eachStep_and {C D : σ → ε → Prop} {es : List ε} :
    ∀ {s : σ}, M.EachStep C s es → M.EachStep D s es →
      M.EachStep (fun s e => C s e ∧ D s e) s es := by
  induction es with
  | nil => intro s _ _; trivial
  | cons e es ih =>
    intro s hC hD s' hs
    exact ⟨⟨(hC s' hs).1, (hD s' hs).1⟩, ih (hC s' hs).2 (hD s' hs).2⟩

theorem eachStep_congr {C D : σ → ε → Prop} (h : ∀ s e, C s e ↔ D s e) {es : List ε} :
    ∀ {s : σ}, M.EachStep C s es ↔ M.EachStep D s es := by
  induction es with
  | nil => intro s; exact Iff.rfl
  | cons e es ih =>
    intro s
    constructor
    · intro hc s' hs
      exact ⟨(h s e).mp (hc s' hs).1, ih.mp (hc s' hs).2⟩
    · intro hd s' hs
      exact ⟨(h s e).mpr (hd s' hs).1, ih.mpr (hd s' hs).2⟩

instance decidableEachStep (C : σ → ε → Prop) [∀ s e, Decidable (C s e)] :
    ∀ (s : σ) (es : List ε), Decidable (M.EachStep C s es)
  | _, [] => isTrue trivial
  | s, e :: es =>
    match h : M.step s e with
    | none => isTrue fun s' hs => by rw [h] at hs; cases hs
    | some s' =>
      have : Decidable (M.EachStep C s' es) := decidableEachStep C s' es
      decidable_of_iff (C s e ∧ M.EachStep C s' es)
        ⟨fun hc s1 hs => by rw [h] at hs; cases hs; exact hc, fun hc => hc s' h⟩

/-- A run that ends in a state without `P` refutes `Always`; what it takes can be evaluated. -/
theorem not_always_of_run {P : σ → Prop} [DecidablePred P] {s : σ} {es : List ε}
    (h : (M.run s es).any (fun s' => !decide (P s')) = true) : ¬ M.Always P s es := by
  intro ha
  obtain ⟨s', hr, hp⟩ := (Option.any_eq_true _ _).mp h
  have := always_iff_prefix.mp ha es (List.prefix_refl es) s' hr
  simp [this] at hp

/-- A run all of whose steps meet `C` keeps an invariant that steps meeting `C` keep. -/
theorem always_of_eachStep {I P : σ → Prop} {C : σ → ε → Prop} (hP : ∀ s, I s → P s)
    (hstep : ∀ s e s', I s → C s e → M.step s e = some s' → I s') :
    ∀ {es : List ε} {s : σ}, I s → M.EachStep C s es → M.Always P s es := by
  intro es
  induction es with
  | nil => intro s hI _; exact hP s hI
  | cons e es ih =>
    intro s hI hC
    refine ⟨hP s hI, fun s' h => ?_⟩
    obtain ⟨hc, hrest⟩ := hC s' h
    exact ih (hstep s e s' hI hc h) hrest

/-- An invariant of every step holds all along every run. -/
theorem always_of_invariant {I : σ → Prop}
    (hstep : ∀ s e s', I s → M.step s e = some s' → I s') :
    ∀ {es : List ε} {s : σ}, I s → M.Always I s es := by
  intro es
  induction es with
  | nil => intro s hI; exact hI
  | cons e es ih =>
    intro s hI
    exact ⟨hI, fun s' h => ih (hstep s e s' hI h)⟩

/-- What an invariant of every step says of the steps holds of each step of every run. -/
theorem eachStep_of_invariant {I : σ → Prop} {C : σ → ε → Prop}
    (hstep : ∀ s e s', I s → M.step s e = some s' → C s e ∧ I s') :
    ∀ {es : List ε} {s : σ}, I s → M.EachStep C s es := by
  intro es
  induction es with
  | nil => intro s _; trivial
  | cons e es ih =>
    intro s hI s' hs
    obtain ⟨hc, hI'⟩ := hstep s e s' hI hs
    exact ⟨hc, ih hI'⟩

/-- **Exact conditions.** `P` holds all along the run exactly when every step meets `C`. -/
theorem always_iff_eachStep {I P : σ → Prop} {C : σ → ε → Prop} (hP : ∀ s, I s → P s)
    (hstep : ∀ s e s', I s → C s e → M.step s e = some s' → I s')
    (hbad : ∀ s e s', I s → ¬ C s e → M.step s e = some s' → ¬ P s') :
    ∀ {es : List ε} {s : σ}, I s → (M.Always P s es ↔ M.EachStep C s es) := by
  intro es s hI
  refine ⟨?_, always_of_eachStep hP hstep hI⟩
  induction es generalizing s with
  | nil => intro _; trivial
  | cons e es ih =>
    rintro ⟨_, hrest⟩ s' h
    have hc : C s e := by
      by_contra hn
      exact hbad s e s' hI hn h (always_here (hrest s' h))
    exact ⟨hc, ih (hstep s e s' hI hc h) (hrest s' h)⟩

/-- Where no event is ever disabled, a condition on the events alone is one on the list. -/
theorem eachStep_iff_forall (htotal : ∀ s e, ∃ s', M.step s e = some s') {C : ε → Prop}
    {es : List ε} : ∀ {s : σ}, M.EachStep (fun _ e => C e) s es ↔ ∀ e ∈ es, C e := by
  induction es with
  | nil => intro s; simp [EachStep]
  | cons e es ih =>
    intro s
    obtain ⟨s1, h1⟩ := htotal s e
    constructor
    · intro h f hf
      rcases List.mem_cons.mp hf with rfl | hf
      · exact (h s1 h1).1
      · exact ih.mp (h s1 h1).2 f hf
    · intro h s' _
      exact ⟨h e List.mem_cons_self, ih.mpr fun f hf => h f (List.mem_cons_of_mem _ hf)⟩

/-! ## Restricted machines and machines with a history -/

theorem only_step {K : σ → ε → Bool} {s s' : σ} {e : ε} :
    (M.only K).step s e = some s' ↔ K s e = true ∧ M.step s e = some s' := by
  cases h : K s e <;> simp [only, h]

theorem withHistory_step {ω : Type} {u : ω → σ → ε → ω} {p p' : σ × ω} {e : ε} :
    (M.withHistory u).step p e = some p' ↔ M.step p.1 e = some p'.1 ∧ p'.2 = u p.2 p.1 e := by
  obtain ⟨s', w'⟩ := p'
  simp only [withHistory, Option.map_eq_some_iff, Prod.mk.injEq]
  constructor
  · rintro ⟨s1, h, rfl, rfl⟩
    exact ⟨h, rfl⟩
  · rintro ⟨h, rfl⟩
    exact ⟨s', h, rfl, rfl⟩

/-- The history does not change what the machine does. -/
theorem always_withHistory {ω : Type} {u : ω → σ → ε → ω} {P : σ → Prop} {es : List ε} :
    ∀ {s : σ} {w : ω},
      (M.withHistory u).Always (fun p => P p.1) (s, w) es ↔ M.Always P s es := by
  induction es with
  | nil => intro s w; exact Iff.rfl
  | cons e es ih =>
    intro s w
    constructor
    · rintro ⟨h, hrest⟩
      refine ⟨h, fun s' hs => ?_⟩
      exact ih.mp (hrest (s', u w s e) (withHistory_step.mpr ⟨hs, rfl⟩))
    · rintro ⟨h, hrest⟩
      refine ⟨h, fun p' hp => ?_⟩
      obtain ⟨hs, _⟩ := withHistory_step.mp hp
      exact ih.mpr (hrest p'.1 hs)

end Machine
end CanNet
