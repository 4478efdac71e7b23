import CanNet.Lib.Machine
import CanNet.Lib.Ring

/-!
# CanNet.Lib.RingReader

A program that reads a ring buffer one element per wake-up.

Every arrival raises a flag. A wake-up that finds the flag set lowers it, copies the cell at the
reader's own index, acknowledges that cell and moves on to the next one; it may also reset the
ring, which the reader's index does not follow.

* `drained_iff` — without overflow and reset, a lowered flag means that everything has been read
  exactly when no wake-up finds two unread elements.
* `inStep_iff`  — the reader's index is the get index of a ring that is not empty exactly when no
  element arrives in a full ring or behind a reset that left the reader's index elsewhere.
-/

namespace CanNet

structure RingReader (α : Type) (n : Nat) where
  ring : Ring α n
  index : Nat
  flag : Bool
  arrived : List α
  read : List α

inductive RingEvent (α : Type) where
  | arrive (a : α)
  | wake (reset : Bool)

namespace RingReader

variable {α : Type} {n : Nat}

def arrive (a : α) (t : RingReader α n) : RingReader α n :=
  { t with ring := t.ring.arrive true a, flag := true, arrived := t.arrived ++ [a] }

def serve (t : RingReader α n) : RingReader α n :=
  if t.flag then
    { t with ring := t.ring.ack t.index, index := Ring.next n t.index, flag := false,
             read := t.read ++ [t.ring.cells t.index] }
  else t

def reset (b : Bool) (t : RingReader α n) : RingReader α n :=
  if b then { t with ring := t.ring.clear } else t

def machine (α : Type) (n : Nat) : Machine (RingReader α n) (RingEvent α) where
  step t e :=
    match e with
    | .arrive a => some (t.arrive a)
    | .wake b => some (t.serve.reset b)

theorem serve_of_flag {t : RingReader α n} (h : t.flag = true) :
    t.serve = { t with ring := t.ring.ack t.index, index := Ring.next n t.index, flag := false,
                       read := t.read ++ [t.ring.cells t.index] } := by
  simp [serve, h]

theorem serve_of_not_flag {t : RingReader α n} (h : t.flag = false) : t.serve = t := by
  simp [serve, h]

@[simp] theorem serve_flag (t : RingReader α n) : t.serve.flag = false := by
  cases h : t.flag <;> simp [serve, h]

@[simp] theorem reset_index (b : Bool) (t : RingReader α n) : (t.reset b).index = t.index := by
  cases b <;> rfl

/-! ## Draining -/

/-- Everything that has arrived was read, or is still in the ring and the flag says so. -/
structure Tracks (t : RingReader α n) : Prop where
  coherent : t.ring.Coherent
  index : t.index = t.ring.get
  arrived : t.arrived = t.read ++ t.ring.contents
  flag_pos : t.flag = true → 0 < t.ring.fill

def Drained (t : RingReader α n) : Prop := t.flag = false → t.ring.fill = 0 ∧ t.read = t.arrived

/-- No overflow and no reset. -/
def roomy (t : RingReader α n) : RingEvent α → Bool
  | .arrive _ => t.ring.fill < n
  | .wake b => !b

def AtMostOne (t : RingReader α n) : RingEvent α → Prop
  | .arrive _ => True
  | .wake _ => t.flag = true → t.ring.fill ≤ 1

theorem Tracks.arrive {t : RingReader α n} (h : t.Tracks) (hfill : t.ring.fill < n) (a : α) :
    (t.arrive a).Tracks where
  coherent := Ring.coherent_arrive h.coherent hfill
  index := by
    obtain ⟨_, _, hget, _⟩ := Ring.arrive_of_lt (b := true) (x := a) hfill
    exact h.index.trans hget.symm
  arrived := by
    have hc := Ring.contents_arrive (b := true) (x := a) h.coherent hfill
    simp only [RingReader.arrive, hc, h.arrived, List.append_assoc]
  flag_pos _ := Ring.arrive_fill_pos

theorem Tracks.serve {t : RingReader α n} (h : t.Tracks) : t.serve.Tracks := by
  cases hf : t.flag with
  | false => rw [serve_of_not_flag hf]; exact h
  | true =>
    have hpos := h.flag_pos hf
    rw [serve_of_flag hf, h.index]
    refine ⟨Ring.coherent_ack h.coherent hpos, rfl, ?_, fun hc => by cases hc⟩
    have hcons := Ring.contents_cons t.ring hpos
    simp only [Ring.contents_ack hpos, List.append_assoc, List.singleton_append]
    rw [h.arrived, ← hcons]

/-- A wake-up leaves one element less unread. -/
theorem serve_fill {t : RingReader α n} (hf : t.flag = true) :
    t.serve.ring.fill = t.ring.fill - 1 := by
  rw [serve_of_flag hf, Ring.ack_fill]

theorem Tracks.drained_of_empty {t : RingReader α n} (h : t.Tracks) (he : t.ring.fill = 0) :
    t.Drained := by
  intro _
  refine ⟨he, ?_⟩
  rw [h.arrived, (Ring.contents_eq_nil t.ring).mpr he, List.append_nil]

/-- Tracking, and a lowered flag means an empty ring. -/
structure Settled (t : RingReader α n) : Prop extends Tracks t where
  empty : t.flag = false → t.ring.fill = 0

theorem Settled.drained {t : RingReader α n} (h : t.Settled) : t.Drained := by
  intro hf
  exact h.toTracks.drained_of_empty (h.empty hf) hf

theorem Settled.step {t t' : RingReader α n} {e : RingEvent α} (h : t.Settled)
    (hc : t.AtMostOne e) (hs : ((machine α n).only roomy).step t e = some t') : t'.Settled := by
  obtain ⟨hk, hs⟩ := Machine.only_step.mp hs
  cases e with
  | arrive a =>
    cases hs
    refine ⟨h.toTracks.arrive (by simpa [roomy] using hk) a, fun hf => by cases hf⟩
  | wake b =>
    have hb : b = false := by simpa [roomy] using hk
    subst hb
    cases hs
    refine ⟨h.toTracks.serve, fun _ => ?_⟩
    show t.serve.ring.fill = 0
    cases hf : t.flag with
    | false => rw [serve_of_not_flag hf]; exact h.empty hf
    | true =>
      have hle : t.ring.fill ≤ 1 := hc hf
      rw [serve_fill hf]
      omega

/-- A wake-up that finds two unread elements leaves one behind a lowered flag. -/
theorem stranded {t t' : RingReader α n} {e : RingEvent α} (hc : ¬ t.AtMostOne e)
    (hs : ((machine α n).only roomy).step t e = some t') :
    ¬ t'.Drained := by
  obtain ⟨hk, hs⟩ := Machine.only_step.mp hs
  cases e with
  | arrive a => exact absurd trivial hc
  | wake b =>
    have hb : b = false := by simpa [roomy] using hk
    subst hb
    cases hs
    simp only [AtMostOne, Classical.not_imp, Nat.not_le] at hc
    obtain ⟨hf, htwo⟩ := hc
    intro hd
    have hempty : t.serve.ring.fill = 0 := (hd (serve_flag t)).1
    rw [serve_fill hf] at hempty
    omega

theorem drained_iff {t : RingReader α n} (h : t.Settled) (es : List (RingEvent α)) :
    ((machine α n).only roomy).Always Drained t es ↔
      ((machine α n).only roomy).EachStep AtMostOne t es :=
  Machine.always_iff_eachStep (I := Settled) (fun _ h => h.drained)
    (fun _ _ _ h hc hs => h.step hc hs) (fun _ _ _ _ hc hs => stranded hc hs) h

/-! ## Staying in step -/

/-- The cell the reader copies next is the oldest unread element. -/
def InStep (t : RingReader α n) : Prop :=
  0 < t.ring.fill → t.index = t.ring.get ∧ t.ring.contents.head? = some (t.ring.cells t.index)

theorem inStep_of_index {t : RingReader α n} (h : 0 < t.ring.fill → t.index = t.ring.get) :
    t.InStep := by
  intro hpos
  refine ⟨h hpos, ?_⟩
  rw [h hpos]
  exact Ring.head_contents t.ring hpos

/-- The history: whether the last reset found the reader's index elsewhere than at the start. -/
def displaced (w : Bool) (t : RingReader α n) : RingEvent α → Bool
  | .arrive _ => w
  | .wake b => if b then decide (t.serve.index ≠ 0) else w

def OnTime (p : RingReader α n × Bool) : RingEvent α → Prop
  | .arrive _ => p.1.ring.fill < n ∧ p.2 = false
  | .wake _ => True

structure Aligned (p : RingReader α n × Bool) : Prop where
  flag_pos : p.1.flag = true → 0 < p.1.ring.fill
  inStep : p.2 = false → p.1.index = p.1.ring.get
  away : p.2 = true → p.1.ring.fill = 0 ∧ p.1.index ≠ p.1.ring.get

theorem Aligned.inStep_state {p : RingReader α n × Bool} (h : Aligned p) : p.1.InStep := by
  apply inStep_of_index
  intro hpos
  cases hw : p.2 with
  | false => exact h.inStep hw
  | true =>
    have := (h.away hw).1
    omega

theorem Aligned.serve {p : RingReader α n × Bool} (h : Aligned p) : Aligned (p.1.serve, p.2) := by
  cases hf : p.1.flag with
  | false => rw [serve_of_not_flag hf]; exact h
  | true =>
    have hpos := h.flag_pos hf
    have hw : p.2 = false := by
      cases hw : p.2 with
      | false => rfl
      | true =>
        have := (h.away hw).1
        omega
    refine ⟨fun hc => by simp at hc, fun _ => ?_, fun hc => ?_⟩
    · rw [serve_of_flag hf]; rfl
    · rw [hw] at hc; cases hc

theorem Aligned.step {p p' : RingReader α n × Bool} {e : RingEvent α} (h : Aligned p)
    (hc : OnTime p e) (hs : ((machine α n).withHistory displaced).step p e = some p') :
    Aligned p' := by
  obtain ⟨hs, hw⟩ := Machine.withHistory_step.mp hs
  obtain ⟨t', w'⟩ := p'
  dsimp only at hs hw
  subst hw
  cases e with
  | arrive a =>
    obtain ⟨hfill, hp⟩ := hc
    obtain ⟨_, _, hget, _⟩ := Ring.arrive_of_lt (b := true) (x := a) hfill
    cases hs
    refine ⟨fun _ => Ring.arrive_fill_pos, fun _ => ?_, fun hw => ?_⟩
    · exact (h.inStep hp).trans hget.symm
    · simp only [displaced, hp] at hw; cases hw
  | wake b =>
    cases hs
    cases b with
    | false => exact h.serve
    | true =>
      refine ⟨fun hf => ?_, fun hw => ?_, fun hw => ?_⟩
      · simp [reset] at hf
      · simpa [displaced, reset] using hw
      · refine ⟨rfl, ?_⟩
        simpa [displaced, reset] using hw

/-- An arrival out of time moves the get index away, or lands where the reader is not. -/
theorem Aligned.drift (hn : 1 < n) {p p' : RingReader α n × Bool} {e : RingEvent α}
    (h : Aligned p) (hc : ¬ OnTime p e)
    (hs : ((machine α n).withHistory displaced).step p e = some p') : ¬ p'.1.InStep := by
  obtain ⟨hs, _⟩ := Machine.withHistory_step.mp hs
  obtain ⟨t', w'⟩ := p'
  cases e with
  | wake b => exact absurd trivial hc
  | arrive a =>
    cases hs
    intro hin
    have hidx : p.1.index = (p.1.ring.arrive true a).get := (hin Ring.arrive_fill_pos).1
    rcases Nat.lt_or_ge p.1.ring.fill n with hfill | hfill
    · obtain ⟨_, _, hget, _⟩ := Ring.arrive_of_lt (b := true) (x := a) hfill
      have hw : p.2 = true := by
        cases hw : p.2 with
        | false => exact absurd ⟨hfill, hw⟩ hc
        | true => rfl
      rw [hget] at hidx
      exact (h.away hw).2 hidx
    · have hfull : p.1.ring.fill = n := Nat.le_antisymm p.1.ring.fill_le hfill
      obtain ⟨_, _, hget, _⟩ := Ring.arrive_of_full (x := a) hfull
      have hw : p.2 = false := by
        cases hw : p.2 with
        | false => rfl
        | true =>
          have := (h.away hw).1
          omega
      have hlt := p.1.ring.get_lt
      rw [hget, h.inStep hw, Ring.next] at hidx
      have := Ring.slot_eq hlt (Nat.le_of_lt hn)
      split at this <;> omega

theorem inStep_iff (hn : 1 < n) {p : RingReader α n × Bool} (h : Aligned p)
    (es : List (RingEvent α)) :
    ((machine α n).withHistory displaced).Always (fun p => InStep p.1) p es ↔
      ((machine α n).withHistory displaced).EachStep OnTime p es :=
  Machine.always_iff_eachStep (I := Aligned) (fun _ h => h.inStep_state)
    (fun _ _ _ h hc hs => h.step hc hs) (fun _ _ _ h hc hs => h.drift hn hc hs) h

end RingReader
end CanNet
