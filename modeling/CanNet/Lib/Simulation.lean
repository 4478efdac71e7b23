import CanNet.Lib.Machine

/-!
# CanNet.Lib.Simulation

A machine seen as another one.

A `Simulation` of `M` by `N` maps every state of `M` that satisfies an invariant to a state of
`N`, and every step of `M` to one step of `N` (its label) or to none at all. What `N` does along
the labels of a run is then what `M` does along the run: `always_iff`, `eachStep_iff`.
-/

namespace CanNet

variable {σ ε τ δ : Type}

structure Simulation (M : Machine σ ε) (N : Machine τ δ) where
  inv : σ → Prop
  view : σ → τ
  label : σ → ε → Option δ
  keeps : ∀ s e s', inv s → M.step s e = some s' → inv s'
  quiet : ∀ s e s', inv s → M.step s e = some s' → label s e = none → view s' = view s
  visible : ∀ s e s' d, inv s → M.step s e = some s' → label s e = some d →
    N.step (view s) d = some (view s')

namespace Simulation

variable {M : Machine σ ε} {N : Machine τ δ} (S : Simulation M N)

/-- The steps of `N` that a run of `M` amounts to. -/
def labels : σ → List ε → List δ
  | _, [] => []
  | s, e :: es =>
    match M.step s e with
    | none => []
    | some s' =>
      match S.label s e with
      | none => labels s' es
      | some d => d :: labels s' es

variable {S}

theorem labels_stuck {s : σ} {e : ε} (h : M.step s e = none) (es : List ε) :
    S.labels s (e :: es) = [] := by
  simp [labels, h]

theorem labels_quiet {s s' : σ} {e : ε} (h : M.step s e = some s') (hl : S.label s e = none)
    (es : List ε) : S.labels s (e :: es) = S.labels s' es := by
  simp [labels, h, hl]

theorem labels_visible {s s' : σ} {e : ε} {d : δ} (h : M.step s e = some s')
    (hl : S.label s e = some d) (es : List ε) :
    S.labels s (e :: es) = d :: S.labels s' es := by
  simp [labels, h, hl]

/-- A property of the view holds all along a run of `M` exactly when it holds along the labels. -/
theorem always_iff {P : τ → Prop} (es : List ε) : ∀ {s : σ}, S.inv s →
    (M.Always (fun s => P (S.view s)) s es ↔ N.Always P (S.view s) (S.labels s es)) := by
  induction es with
  | nil => intro s _; exact Iff.rfl
  | cons e es ih =>
    intro s hs
    cases h : M.step s e with
    | none =>
      rw [labels_stuck h]
      constructor
      · intro ha; exact ha.1
      · intro hp; exact ⟨hp, fun s' hs' => by rw [h] at hs'; cases hs'⟩
    | some s1 =>
      have h1 := S.keeps s e s1 hs h
      have hM : M.Always (fun s => P (S.view s)) s (e :: es) ↔
          P (S.view s) ∧ M.Always (fun s => P (S.view s)) s1 es := by
        constructor
        · intro ha; exact ⟨ha.1, ha.2 s1 h⟩
        · rintro ⟨hp, ha⟩
          refine ⟨hp, fun s' hs' => ?_⟩
          rw [h] at hs'; cases hs'; exact ha
      rw [hM, ih h1]
      cases hl : S.label s e with
      | none =>
        rw [labels_quiet h hl, S.quiet s e s1 hs h hl]
        constructor
        · intro ha; exact ha.2
        · intro ha; exact ⟨Machine.always_here ha, ha⟩
      | some d =>
        rw [labels_visible h hl]
        have hN := S.visible s e s1 d hs h hl
        constructor
        · rintro ⟨hp, ha⟩
          refine ⟨hp, fun t ht => ?_⟩
          rw [hN] at ht; cases ht; exact ha
        · intro ha; exact ⟨ha.1, ha.2 _ hN⟩

/-- A condition on the steps of `N`, along the labels, is a condition on the labelled steps. -/
theorem eachStep_iff {C : τ → δ → Prop} (es : List ε) : ∀ {s : σ}, S.inv s →
    (M.EachStep (fun s e => ∀ d, S.label s e = some d → C (S.view s) d) s es ↔
      N.EachStep C (S.view s) (S.labels s es)) := by
  induction es with
  | nil => intro s _; exact Iff.rfl
  | cons e es ih =>
    intro s hs
    cases h : M.step s e with
    | none =>
      rw [labels_stuck h]
      constructor
      · intro _; trivial
      · intro _ s' hs'; rw [h] at hs'; cases hs'
    | some s1 =>
      have h1 := S.keeps s e s1 hs h
      have hM : M.EachStep (fun s e => ∀ d, S.label s e = some d → C (S.view s) d) s (e :: es) ↔
          (∀ d, S.label s e = some d → C (S.view s) d) ∧
            M.EachStep (fun s e => ∀ d, S.label s e = some d → C (S.view s) d) s1 es := by
        constructor
        · intro ha; exact ha s1 h
        · intro ha s' hs'; rw [h] at hs'; cases hs'; exact ha
      rw [hM, ih h1]
      cases hl : S.label s e with
      | none =>
        rw [labels_quiet h hl, S.quiet s e s1 hs h hl]
        constructor
        · intro ha; exact ha.2
        · intro ha; exact ⟨fun d hd => (by cases hd), ha⟩
      | some d =>
        rw [labels_visible h hl]
        have hN := S.visible s e s1 d hs h hl
        constructor
        · rintro ⟨hc, ha⟩ t ht
          rw [hN] at ht; cases ht; exact ⟨hc d rfl, ha⟩
        · intro ha
          obtain ⟨hc, hrest⟩ := ha _ hN
          refine ⟨fun d' hd' => ?_, hrest⟩
          cases hd'; exact hc

/-- What every step of `N` keeps holds of the view all along every run of `M`. -/
theorem always_of_invariant {I : τ → Prop}
    (hstep : ∀ t d t', I t → N.step t d = some t' → I t') (es : List ε) {s : σ} (hs : S.inv s)
    (h : I (S.view s)) : M.Always (fun s => I (S.view s)) s es :=
  (always_iff es hs).mpr (Machine.always_of_invariant hstep h)

variable (S)

/-- The same simulation between two restricted machines, with what else the restricted machine
keeps. -/
def only {K : σ → ε → Bool} {L : τ → δ → Bool} (J : σ → Prop)
    (hJ : ∀ s e s', S.inv s → J s → (M.only K).step s e = some s' → J s')
    (h : ∀ s e d, S.inv s → J s → K s e = true → S.label s e = some d → L (S.view s) d = true) :
    Simulation (M.only K) (N.only L) where
  inv s := S.inv s ∧ J s
  view := S.view
  label := S.label
  keeps s e s' hs hstep :=
    ⟨S.keeps s e s' hs.1 (Machine.only_step.mp hstep).2, hJ s e s' hs.1 hs.2 hstep⟩
  quiet s e s' hs hstep := S.quiet s e s' hs.1 (Machine.only_step.mp hstep).2
  visible s e s' d hs hstep hl := by
    obtain ⟨hk, hM⟩ := Machine.only_step.mp hstep
    exact Machine.only_step.mpr ⟨h s e d hs.1 hs.2 hk hl, S.visible s e s' d hs.1 hM hl⟩

/-- The same simulation between two machines that keep matching histories. -/
def withHistory {ω : Type} (u : ω → σ → ε → ω) (v : ω → τ → δ → ω)
    (hq : ∀ w s e, S.label s e = none → u w s e = w)
    (hv : ∀ w s e d, S.inv s → S.label s e = some d → u w s e = v w (S.view s) d) :
    Simulation (M.withHistory u) (N.withHistory v) where
  inv p := S.inv p.1
  view p := (S.view p.1, p.2)
  label p := S.label p.1
  keeps p e p' hp hstep := S.keeps p.1 e p'.1 hp (Machine.withHistory_step.mp hstep).1
  quiet p e p' hp hstep hl := by
    obtain ⟨hs, hw⟩ := Machine.withHistory_step.mp hstep
    rw [S.quiet p.1 e p'.1 hp hs hl, hw, hq p.2 p.1 e hl]
  visible p e p' d hp hstep hl := by
    obtain ⟨hs, hw⟩ := Machine.withHistory_step.mp hstep
    refine Machine.withHistory_step.mpr ⟨S.visible p.1 e p'.1 d hp hs hl, ?_⟩
    rw [hw, hv p.2 p.1 e d hp hl]

end Simulation
end CanNet
