import CanNet.Node
import Mathlib.Logic.Function.Conjugate

/-!
# CanNet.Overlay

Changing what the node does not look at.

Neither the interrupt handler nor the hardware's receive and error steps read the interrupt enable
register, the standard filter list or the Tx buffers: doing such a step and changing these commute
(`handler_overlay`, `nodeStep_overlay`). Calls of `can_tx_message` write a Tx buffer and bus steps
read one, so they are not among these steps.
-/

namespace CanNet

open Bits

structure Overlay where
  ie : Word → Word
  standardFilter : (Nat → Word) → Nat → Word
  txBuffer : (Nat → McanTxElement) → Nat → McanTxElement

def Mcan.overlay (o : Overlay) (m : Mcan) : Mcan :=
  { m with
    ie := o.ie m.ie
    standardFilter := o.standardFilter m.standardFilter
    txBuffer := o.txBuffer m.txBuffer }

def Node.overlay (o : Overlay) (s : Node) : Node := s.onMcan (Mcan.overlay o)

def NodeEvent.usesTxBuffer : NodeEvent → Bool
  | .txMessage .. | .busStep => true
  | _ => false

variable (o : Overlay)

/-! ## Register writes -/

theorem commute_writeCccr (f : Word → Word) :
    Function.Commute (fun m : Mcan => m.writeCccr (f m.cccr)) (Mcan.overlay o) := by
  intro m
  simp only [Mcan.writeCccr]
  rw [apply_ite (Mcan.overlay o)]
  rfl

variable {o}

theorem commute_configure {f : Mcan → Mcan} (h : Function.Commute f (Mcan.overlay o)) :
    Function.Commute (Mcan.configure f) (Mcan.overlay o) := by
  intro m
  simp only [Mcan.configure]
  rw [apply_ite (Mcan.overlay o), ← h m]
  rfl

variable (o)

theorem commute_orCccrIf (b : Bool) (bits : Word) :
    Function.Commute (orCccrIf b bits) (Mcan.overlay o) := by
  intro m
  simp only [orCccrIf]
  rw [apply_ite (Mcan.overlay o), ← commute_writeCccr o (· ||| bits) m]

theorem commute_mcanSetConfiguration (config : McanConfig) :
    Function.Commute (mcanSetConfiguration config) (Mcan.overlay o) := by
  intro m
  simp only [mcanSetConfiguration]
  rw [commute_orCccrIf, commute_orCccrIf, commute_orCccrIf]
  refine commute_configure ?_ _
  intro m
  rfl

theorem canInit_overlay : Function.Commute canInit (Node.overlay o) := by
  intro s
  have hmemory : Function.Commute mcanMessageMemoryInit (Mcan.overlay o) :=
    commute_configure fun _ => rfl
  have hall : Function.Commute (fun m : Mcan => mcanSetConfiguration mcanGetConfigDefaults
      (mcanMessageMemoryInit (m.writeCccr (m.cccr ||| mcanCccrCce)))) (Mcan.overlay o) :=
    (commute_mcanSetConfiguration o _).comp_left
      (hmemory.comp_left (commute_writeCccr o (· ||| mcanCccrCce)))
  exact congrArg (fun m => ({ s with hw := .mcan1, mcan := m } : Node)) (hall s.mcan)

/-! ## The handler -/

theorem rxBufferBranch_overlay : Function.Commute rxBufferBranch (Node.overlay o) := by
  have hfold : ∀ (ks : List Nat) (s : Node),
      ks.foldl serviceRxBuffer (s.overlay o) = (ks.foldl serviceRxBuffer s).overlay o := by
    intro ks
    induction ks with
    | nil => intro s; rfl
    | cons k ks ih => intro s; exact ih (serviceRxBuffer s k)
  intro s
  exact hfold (rxBufferScanned s).2
    ((mcanClearInterruptStatus mcanRxBufferNewMessage s).onMcan fun m =>
      { m with newData := (rxBufferScanned s).1 })

theorem busOffBranch_overlay : Function.Commute busOffBranch (Node.overlay o) := by
  intro s
  have hstop : Function.Commute mcanStop (Node.overlay o) := fun t =>
    congrArg (fun m => ({ t with mcan := m } : Node))
      (commute_writeCccr o (· ||| mcanCccrInit) t.mcan)
  have hclear : mcanClearInterruptStatus mcanBusOff (s.overlay o) =
      (mcanClearInterruptStatus mcanBusOff s).overlay o := rfl
  simp only [busOffBranch, hclear, hstop.eq]
  exact canInit_overlay o ((mcanStop (mcanClearInterruptStatus mcanBusOff s)).emit
    (.message ": MCAN bus off error, re-initialization. \r\n\r\n"))

variable {o}

theorem guarded_overlay {branch : Node → Node} (b : Bool)
    (h : Function.Commute branch (Node.overlay o)) :
    Function.Commute (guarded b branch) (Node.overlay o) := by
  cases b with
  | false => exact fun _ => rfl
  | true => exact h

variable (o)

theorem fifo0Branch_overlay : Function.Commute fifo0Branch (Node.overlay o) := fun _ => rfl
theorem fifo1Branch_overlay : Function.Commute fifo1Branch (Node.overlay o) := fun _ => rfl
theorem protocolErrorBranch_overlay : Function.Commute protocolErrorBranch (Node.overlay o) :=
  fun _ => rfl

theorem handler_overlay : Function.Commute mcan1Int0Handler (Node.overlay o) := by
  intro s
  have hall := (guarded_overlay (has s.mcan.ir mcanBusOff) (busOffBranch_overlay o)).comp_left
    ((guarded_overlay (has s.mcan.ir mcanAcknowledgeError || has s.mcan.ir mcanFormatError)
      (protocolErrorBranch_overlay o)).comp_left
    ((guarded_overlay (has s.mcan.ir mcanRxFifo1NewMessage) (fifo1Branch_overlay o)).comp_left
    ((guarded_overlay (has s.mcan.ir mcanRxFifo0NewMessage) (fifo0Branch_overlay o)).comp_left
    (guarded_overlay (has s.mcan.ir mcanRxBufferNewMessage) (rxBufferBranch_overlay o)))))
  exact hall s

/-! ## The node machine -/

theorem nodeStep_overlay (s : Node) {e : NodeEvent} (h : e.usesTxBuffer = false) :
    nodeMachine.step (s.overlay o) e = (nodeMachine.step s e).map (Node.overlay o) := by
  cases e with
  | txMessage idValue length data txElement => cases h
  | busStep => cases h
  | handler => exact congrArg some (handler_overlay o s)
  | _ => rfl

end CanNet
