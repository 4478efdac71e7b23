import CanNet.Accounting
import CanNet.Slave

/-!
# CanNet.Link

The master's command module and subsystem 2 end to end.

Every frame accepted by `can_tx_message` is put on the bus and offered to the slave before the
next command. Whatever the commands, their payloads and the refusals, the two programs together
are one bit that ids 5 and 6 set and clear.
-/

namespace CanNet

open Slave (passesMask)

structure Link where
  session : Session
  slave : Slave

/-- The frame as the slave's controller sees it; `none` if it is not a standard data frame. -/
def TxFrame.toStdFrame (f : TxFrame) : Option StdFrame :=
  if h : f.extended = false ∧ f.rtr = false ∧ f.fdf = false ∧ f.dlc.toNat = f.data.length ∧
      f.data.length ≤ 8 then
    some { id := f.id.setWidth 11, data := f.data, length_le := h.2.2.2.2 }
  else none

/-- A call with id 5 or 6 whose frame was accepted. -/
def CommandRecord.ledAccepted (r : CommandRecord) : Bool :=
  (r.cmdId = 5#8 || r.cmdId = 6#8) && r.frame.isSome

/-- Of a call with id 5 or 6 the status tells whether the frame was accepted. -/
def CommandRecord.Answered (r : CommandRecord) : Prop :=
  r.cmdId = 5#8 ∨ r.cmdId = 6#8 → (r.frame.isSome = true ↔ r.status = .statusOk)

theorem Recorded.answered {c : CommandCall} {r : CommandRecord} (h : Recorded c r)
    (hid : r.cmdId = c.cmdId) : r.Answered := by
  intro hled
  obtain ⟨hsent, hquery⟩ : (sentBy c.cmdId).isSome = true ∧ isQuery c.cmdId = false := by
    rw [← hid]
    rcases hled with h5 | h6
    · rw [h5]
      exact ⟨rfl, rfl⟩
    · rw [h6]
      exact ⟨rfl, rfl⟩
  cases h with
  | silent hnone _ _ =>
    rw [hnone] at hsent
    cases hsent
  | accepted canId cmd _ _ hstatus hframe => simp [hstatus, hframe]
  | refused canId cmd _ _ hstatus hframe =>
    rw [hquery] at hstatus
    simp [hstatus, hframe]

def lastLedCommand (log : List CommandRecord) : Option Byte :=
  ((log.filter CommandRecord.ledAccepted).getLast?).map CommandRecord.cmdId

theorem lastLedCommand_snoc (log : List CommandRecord) (r : CommandRecord) :
    lastLedCommand (log ++ [r]) = if r.ledAccepted then some r.cmdId else lastLedCommand log := by
  unfold lastLedCommand
  rw [List.filter_append]
  by_cases h : r.ledAccepted = true
  · simp [h]
  · simp [h]

/-- The frame of an accepted command, on the bus. -/
def commandFrame (canId : Word) (cmd : Byte) : StdFrame where
  id := canId.setWidth 11
  data := canMessage cmd 0#32
  length_le := by simp [canMessage]

theorem callFrame_toStdFrame (canId : Word) (cmd : Byte) :
    (callFrame canId 4#8 (canMessage cmd 0#32)).toStdFrame = some (commandFrame canId cmd) := by
  have hlen : ((canMessage cmd 0#32).take (4#8).toNat) = canMessage cmd 0#32 := rfl
  have hid : ((canId.setWidth 11).setWidth 29).setWidth 11 = canId.setWidth 11 := by
    rw [BitVec.setWidth_setWidth_of_le _ (by decide), BitVec.setWidth_eq]
  simp only [TxFrame.toStdFrame, callFrame, hlen, hid, commandFrame]
  rfl

theorem step_ss1 {s : Slave} (h : s.Ready) (cmd : Byte) :
    s.step (commandFrame ss1CanId cmd) = s :=
  Slave.step_rejected h (by simp [commandFrame, passesMask, Slave.canId, ss1CanId])

theorem step_ss2 {s : Slave} (h : s.Ready) (cmd : Byte) :
    (s.step (commandFrame ss2CanId cmd)).pin6 = Slave.obey s.pin6 cmd :=
  (Slave.step_delivered h (by simp [commandFrame, passesMask, Slave.canId, ss2CanId])).2

/-- What an accepted frame of command `cmdId` does to the slave. -/
theorem step_commandFrame {s : Slave} (h : s.Ready) {cmdId : Byte} {canId : Word} {cmd : Byte}
    (hsent : sentBy cmdId = some (canId, cmd)) :
    (s.step (commandFrame canId cmd)).pin6 =
      if cmdId = 5#8 then .high else if cmdId = 6#8 then .low else s.pin6 := by
  rcases cmdId_cases cmdId with rfl | rfl | rfl | rfl | rfl | rfl | rfl | rfl | rfl | hbig
  · cases hsent
  · cases hsent; rw [step_ss1 h]; rfl
  · cases hsent; rw [step_ss1 h]; rfl
  · cases hsent; rw [step_ss1 h]; rfl
  · cases hsent; rw [step_ss1 h]; rfl
  · cases hsent; rw [step_ss2 h]; rfl
  · cases hsent; rw [step_ss2 h]; rfl
  · cases hsent; rw [step_ss2 h]; rfl
  · cases hsent; rw [step_ss2 h]; rfl
  · rw [sentBy_outside hbig] at hsent; cases hsent

/-- The slave is ready, and its LED shows the last accepted LED command. -/
structure LinkInv (t : Link) : Prop where
  ready : t.slave.Ready
  led : t.slave.pin6 = .high ↔ lastLedCommand t.session.log = some 5#8

theorem LinkInv.step {t t' : Link} {r : CommandRecord} (h : LinkInv t)
    (hlog : t'.session.log = t.session.log ++ [r]) (hready : t'.slave.Ready)
    (hpin : t'.slave.pin6 = if r.ledAccepted then (if r.cmdId = 5#8 then .high else .low)
      else t.slave.pin6) : LinkInv t' := by
  refine ⟨hready, ?_⟩
  rw [hpin, hlog, lastLedCommand_snoc]
  cases hled : r.ledAccepted with
  | false => exact h.led
  | true => by_cases h5 : r.cmdId = 5#8 <;> simp [h5]

end CanNet
