import CanNet.Transmit

/-!
# CanNet.Recovery

The mode bits INIT and CCE over whole runs after start-up.

Only the handler's bus-off branch and the hardware's bus-off event write CCCR once the node runs.
The branch re-initialises the module and does not start it again, so the node stays off the bus
after the first bus-off that a handler run finds.
-/

namespace CanNet

open Bits

def Refuses (s : Node) : Prop :=
  ∃ idValue length data txElement r,
    canTxMessage idValue length data txElement s = some r ∧ r.1 = .errBusy

/-- With no bus-off pending the node is started, and no call is refused. -/
def Recovered (s : Node) : Prop :=
  has s.mcan.ir mcanBusOff = false →
    s.mcan.initBit = false ∧ s.mcan.cceBit = false ∧ ¬ Refuses s

def BusOffUnhandled (s : Node) : NodeEvent → Prop
  | .handler => has s.mcan.ir mcanBusOff = false
  | _ => True

theorem not_refuses {s : Node} (h : s.mcan.cceBit = false) : ¬ Refuses s := by
  rintro ⟨idValue, length, data, txElement, r, hr, hbusy⟩
  obtain ⟨e, _, hcase⟩ := canTxMessage_some hr
  rcases hcase with ⟨_, rfl⟩ | ⟨_, hc, _⟩ | ⟨_, _, rfl⟩
  · cases hbusy
  · rw [h] at hc; cases hc
  · cases hbusy

/-- The node is started, or bus-off is pending. -/
structure ModeInv (s : Node) : Prop where
  started : has s.mcan.ir mcanBusOff = true ∨ (s.mcan.initBit = false ∧ s.mcan.cceBit = false)

theorem ModeInv.recovered {s : Node} (h : ModeInv s) : Recovered s := by
  intro hb
  rcases h.started with ht | ⟨hi, hc⟩
  · rw [hb] at ht; cases ht
  · exact ⟨hi, hc, not_refuses hc⟩

theorem ModeInv.of_same {s t : Node} (h : ModeInv s) (hc : t.mcan.cccr = s.mcan.cccr)
    (hb : has t.mcan.ir mcanBusOff = has s.mcan.ir mcanBusOff) : ModeInv t where
  started := by
    rw [hb, Mcan.initBit, Mcan.cceBit, hc]
    exact h.started

theorem ModeInv.step {s s' : Node} {e : NodeEvent} (h : ModeInv s) (hc : BusOffUnhandled s e)
    (hs : nodeMachine.step s e = some s') : ModeInv s' := by
  have hflag : e ≠ .handler → e ≠ .busOff →
      has s'.mcan.ir mcanBusOff = has s.mcan.ir mcanBusOff :=
    fun hh hb => flag_step hh (raisedBy_busOff hb) hs
  cases e with
  | txMessage idValue length data txElement =>
    obtain ⟨e, _, hcase⟩ := txMessage_step hs
    rcases hcase with ⟨_, rfl⟩ | ⟨_, _, rfl⟩ | ⟨_, _, rfl⟩
    · exact h
    · exact h.of_same rfl rfl
    · exact h.of_same rfl rfl
  | busStep =>
    obtain ⟨_, rfl⟩ := busStep_step hs
    exact h.of_same rfl rfl
  | busOff => cases hs; exact ⟨.inl (has_or_self (by decide))⟩
  | handler =>
    cases hs
    have hoff : has s.mcan.ir mcanBusOff = false := hc
    refine h.of_same (txSame_handler hoff).cccr ?_
    rw [handler_flag s (.inr (.inr (.inr rfl))), hoff]
  | _ => cases hs; exact h.of_same rfl (hflag nofun nofun)

/-- A handler run that finds bus-off leaves INIT and CCE set. -/
theorem handler_busOff {s : Node} (h : has s.mcan.ir mcanBusOff = true) :
    (mcan1Int0Handler s).mcan.initBit = true ∧ (mcan1Int0Handler s).mcan.cceBit = true := by
  rw [mcan1Int0Handler_eq, h, guarded_true]
  obtain ⟨cccr, hi, hc, hm⟩ := busOffBranch_mcan
    (guarded (has s.mcan.ir mcanAcknowledgeError || has s.mcan.ir mcanFormatError)
      protocolErrorBranch
      (guarded (has s.mcan.ir mcanRxFifo1NewMessage) fifo1Branch
        (guarded (has s.mcan.ir mcanRxFifo0NewMessage) fifo0Branch
          (guarded (has s.mcan.ir mcanRxBufferNewMessage) rxBufferBranch s))))
  rw [hm]
  exact ⟨hi, hc⟩

/-- **Bus-off recovery.** The node is back whenever no bus-off is pending exactly when no handler
run finds one. -/
theorem recovery_iff (s : Node) (es : List NodeEvent) :
    nodeMachine.Always Recovered (boot s) es ↔
      nodeMachine.EachStep BusOffUnhandled (boot s) es := by
  refine Machine.always_iff_eachStep (I := ModeInv) (fun _ hi => hi.recovered)
    (fun _ _ _ hi hc hs => hi.step hc hs) (fun t e t' _ hc hs => ?_)
    ⟨.inr ⟨canStart_initBit _, canStart_cceBit _⟩⟩
  cases e with
  | handler =>
    cases hs
    have hoff : has t.mcan.ir mcanBusOff = true := Bool.not_eq_false _ ▸ hc
    intro hr
    have hinit := (hr (handler_flag t (.inr (.inr (.inr rfl))))).1
    rw [(handler_busOff hoff).1] at hinit
    cases hinit
  | _ => exact absurd trivial hc

/-- One bus-off and the handler run that follows it. -/
theorem recovery_after_busOff :
    ¬ nodeMachine.Always Recovered (boot reset) [.busOff, .handler] := by
  intro h
  have hmode : nodeMachine.Always (fun s => has s.mcan.ir mcanBusOff = false →
      s.mcan.initBit = false) (boot reset) [.busOff, .handler] :=
    Machine.always_mono (fun _ hr hb => (hr hb).1) h
  revert hmode
  apply Machine.not_always_of_run
  decide

end CanNet
