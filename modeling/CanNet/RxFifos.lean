import CanNet.RxFifo0

/-!
# CanNet.RxFifos

FIFO 0 and FIFO 1 side by side, without overflow and bus-off.

The FIFO 1 branch acknowledges into FIFO 0. So no handler run ever removes a frame from FIFO 1,
and FIFO 0 is served as it should be as long as no run takes that branch.
-/

namespace CanNet

open Bits

def noOverflows (s : Node) : NodeEvent → Bool
  | .rxFifo0 _ => s.mcan.fifo0.fill < confMcan1RxFifo0Num
  | .rxFifo1 _ => s.mcan.fifo1.fill < confMcan1RxFifo1Num
  | .busOff => false
  | _ => true

/-- A handler run from `s` takes the oldest unread frame off one FIFO, copies it out, and leaves
the other FIFO as it was. -/
def Served {n : Nat} (dest : RxDest) (served other : Mcan → Ring McanRxElement n) (s : Node) :
    Prop :=
  ∃ e, (served s.mcan).contents.head? = some e ∧
    copiedFrom dest (mcan1Int0Handler s).trace = copiedFrom dest s.trace ++ [e] ∧
    (served (mcan1Int0Handler s).mcan).get = Ring.next n (served s.mcan).get ∧
    (served (mcan1Int0Handler s).mcan).fill + 1 = (served s.mcan).fill ∧
    (other (mcan1Int0Handler s).mcan).get = (other s.mcan).get ∧
    (other (mcan1Int0Handler s).mcan).fill = (other s.mcan).fill ∧
    (other (mcan1Int0Handler s).mcan).contents = (other s.mcan).contents

/-- A handler run that finds one FIFO flag serves that FIFO and no other. -/
def Independent (s : Node) : NodeEvent → Prop
  | .handler =>
    (has s.mcan.ir mcanRxFifo1NewMessage = true → has s.mcan.ir mcanRxFifo0NewMessage = false →
      Served .fifo1 Mcan.fifo1 Mcan.fifo0 s) ∧
    (has s.mcan.ir mcanRxFifo0NewMessage = true → has s.mcan.ir mcanRxFifo1NewMessage = false →
      Served .fifo0 Mcan.fifo0 Mcan.fifo1 s)
  | _ => True

/-- No handler run finds the FIFO 1 flag. -/
def Fifo1Unanswered (s : Node) : NodeEvent → Prop
  | .handler => has s.mcan.ir mcanRxFifo1NewMessage = false
  | _ => True

/-- No handler run finds both FIFO flags. -/
def OneFifo (s : Node) : NodeEvent → Prop
  | .handler => has s.mcan.ir mcanRxFifo0NewMessage = false ∨
      has s.mcan.ir mcanRxFifo1NewMessage = false
  | _ => True

/-! ## FIFO 1 is never acknowledged -/

theorem handler_fifo1 {s : Node} (h : has s.mcan.ir mcanBusOff = false) :
    (mcan1Int0Handler s).mcan.fifo1 = s.mcan.fifo1 := by
  refine mcan1Int0Handler_keeps (Q := fun t => t.mcan.fifo1 = s.mcan.fifo1) rfl ?_ ?_ ?_ ?_ ?_
  · intro t ht
    rw [rxBufferBranch, foldl_serviceRxBuffer_mcan]
    exact ht
  · intro t ht; exact ht
  · intro _ t ht; exact ht
  · intro t ht; exact ht
  · intro hb; rw [h] at hb; cases hb

theorem not_served_fifo1 {s : Node} (h : has s.mcan.ir mcanBusOff = false) :
    ¬ Served .fifo1 Mcan.fifo1 Mcan.fifo0 s := by
  rintro ⟨_, _, _, _, hfill, _⟩
  rw [handler_fifo1 h] at hfill
  omega

/-! ## FIFO 0 while FIFO 1 is not answered -/

/-- What handler runs that do not take the FIFO 1 branch keep. -/
structure FifosInv (s : Node) : Prop extends Fifo0Bound s where
  tracks : (fifo0Reader s).Tracks
  onBus : has s.mcan.ir mcanBusOff = false

theorem FifosInv.handler_view {s : Node} (h : FifosInv s)
    (hc : has s.mcan.ir mcanRxFifo1NewMessage = false) :
    fifo0Reader (mcan1Int0Handler s) = (fifo0Reader s).serve := by
  rw [fifo0Reader_handler ⟨h.toFifo0Bound, hc⟩, h.onBus]
  rfl

theorem FifosInv.served {s : Node} (h : FifosInv s)
    (hf : has s.mcan.ir mcanRxFifo0NewMessage = true)
    (hc : has s.mcan.ir mcanRxFifo1NewMessage = false) :
    Served .fifo0 Mcan.fifo0 Mcan.fifo1 s := by
  have hview := h.handler_view hc
  rw [RingReader.serve_of_flag hf] at hview
  have hpos : 0 < s.mcan.fifo0.fill := h.tracks.flag_pos hf
  have hindex : s.standardReceiveIndex = s.mcan.fifo0.get := h.tracks.index
  have hring : (mcan1Int0Handler s).mcan.fifo0 = s.mcan.fifo0.ack s.standardReceiveIndex :=
    congrArg RingReader.ring hview
  have hread : copiedFrom .fifo0 (mcan1Int0Handler s).trace =
      copiedFrom .fifo0 s.trace ++ [s.mcan.fifo0.cells s.standardReceiveIndex] :=
    congrArg RingReader.read hview
  refine ⟨s.mcan.fifo0.cells s.standardReceiveIndex, ?_, hread, ?_, ?_, ?_⟩
  · rw [hindex]
    exact Ring.head_contents s.mcan.fifo0 hpos
  · rw [hring, Ring.ack_get, hindex]
  · rw [hring, Ring.ack_fill]
    omega
  · rw [handler_fifo1 h.onBus]
    exact ⟨rfl, rfl, rfl⟩

theorem FifosInv.independent {s : Node} {e : NodeEvent} (h : FifosInv s)
    (hc : Fifo1Unanswered s e) : Independent s e := by
  cases e with
  | handler =>
    have hquiet : has s.mcan.ir mcanRxFifo1NewMessage = false := hc
    constructor
    · intro hf; rw [hquiet] at hf; cases hf
    · intro hf _; exact h.served hf hquiet
  | _ => trivial

theorem FifosInv.step {s s' : Node} {e : NodeEvent} (h : FifosInv s) (hc : Fifo1Unanswered s e)
    (hs : (nodeMachine.only noOverflows).step s e = some s') : FifosInv s' := by
  obtain ⟨hk, hs⟩ := Machine.only_step.mp hs
  have hbus : has s'.mcan.ir mcanBusOff = false := by
    refine flag_clear_step h.onBus (raisedBy_busOff ?_) hs
    rintro rfl
    cases hk
  have hbound : Fifo0Bound s' := by
    refine h.toFifo0Bound.step ?_ hs
    rintro rfl
    exact hc
  refine ⟨hbound, ?_, hbus⟩
  cases hl : fifo0Label s e with
  | none =>
    rw [(fifo0Reader_quiet hl hs).1]
    exact h.tracks
  | some d =>
    cases e with
    | rxFifo0 e =>
      cases hs
      rw [fifo0Reader_arrive h.toFifo0Bound]
      exact h.tracks.arrive (of_decide_eq_true hk) e
    | handler =>
      cases hs
      rw [h.handler_view hc]
      exact h.tracks.serve
    | _ => cases hl

theorem fifosInv_boot {s : Node} (h : PowerOn s) : FifosInv (boot s) := by
  obtain ⟨_, _, _, _, hm⟩ := boot_mcan h
  refine ⟨(fifo0Ready_boot h).toFifo0Bound, (settled_boot h).toTracks, ?_⟩
  rw [hm]
  exact has_zero _

/-! ## Independence over a run -/

/-- A handler run that finds the FIFO 1 flag alone does not serve FIFO 1. -/
theorem unanswered_of_independent {s : Node} {e : NodeEvent}
    (hb : has s.mcan.ir mcanBusOff = false) (hone : OneFifo s e) (hi : Independent s e) :
    Fifo1Unanswered s e := by
  cases e with
  | handler =>
    cases hf : has s.mcan.ir mcanRxFifo1NewMessage with
    | false => exact hf
    | true =>
      rcases hone with h0 | h1
      · exact absurd (hi.1 hf h0) (not_served_fifo1 hb)
      · rw [hf] at h1; cases h1
  | _ => trivial

/-- **Independent FIFOs.** As long as no handler run finds the FIFO 1 flag, every handler run
serves the FIFO it should and no other; and where no handler run finds both flags, only then. -/
theorem fifos_independent {s : Node} (h : PowerOn s) (es : List NodeEvent) :
    ((nodeMachine.only noOverflows).EachStep Fifo1Unanswered (boot s) es →
      (nodeMachine.only noOverflows).EachStep Independent (boot s) es) ∧
    ((nodeMachine.only noOverflows).EachStep OneFifo (boot s) es →
      (nodeMachine.only noOverflows).EachStep Independent (boot s) es →
        (nodeMachine.only noOverflows).EachStep Fifo1Unanswered (boot s) es) := by
  constructor
  · intro hc
    refine Machine.eachStep_imp (I := FifosInv) (fun t e t' hi hc hs => ?_) (fifosInv_boot h) hc
    exact ⟨hi.independent hc, hi.step hc hs⟩
  · intro hone hind
    refine Machine.eachStep_imp (I := fun t => has t.mcan.ir mcanBusOff = false)
      (fun t e t' hb hc hs => ?_) (fifosInv_boot h).onBus (Machine.eachStep_and hone hind)
    refine ⟨unanswered_of_independent hb hc.1 hc.2, ?_⟩
    obtain ⟨hk, hs⟩ := Machine.only_step.mp hs
    refine flag_clear_step hb (raisedBy_busOff ?_) hs
    rintro rfl
    cases hk

/-- FIFO 0 traffic, answered, and a FIFO 1 frame that no handler run has answered yet. -/
theorem fifos_independent_fifo0_traffic :
    (nodeMachine.only noOverflows).EachStep Independent (boot reset)
      [.rxFifo0 blankRxElement, .handler, .rxFifo1 blankRxElement] := by
  refine (fifos_independent powerOn_reset _).1 ?_
  intro s1 h1
  cases h1
  refine ⟨trivial, ?_⟩
  intro s2 _
  refine ⟨?_, ?_⟩
  · show has _ _ = false
    decide
  · intro s3 _
    exact ⟨trivial, trivial⟩

/-- One FIFO 1 frame and the handler run that answers it. -/
theorem fifos_independent_fifo1_frame :
    ¬ (nodeMachine.only noOverflows).EachStep Independent (boot reset)
      [.rxFifo1 blankRxElement, .handler] := by
  intro h
  obtain ⟨_, h1⟩ := h _ rfl
  obtain ⟨h2, _⟩ := h1 _ rfl
  refine not_served_fifo1 ?_ (h2.1 ?_ ?_)
  all_goals decide

end CanNet
