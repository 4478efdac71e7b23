import CanNet.Commands
import CanNet.TxFrames

/-!
# CanNet.CommandFrames

The command frames of the two subsystem encoders, read back from message RAM.

`decodeCommand` is the receiver's side: the fields of the Tx buffer element and a big-endian
payload of 24 bits. `command_frames_round_trip` says that it undoes the encoders, and that what
goes on the wire does not depend on what the stack held.
-/

namespace CanNet

open Bits

inductive Subsystem where
  | ss1
  | ss2
deriving DecidableEq

namespace Subsystem

def canId : Subsystem → Word
  | .ss1 => ss1CanId
  | .ss2 => ss2CanId

/-- `ss1_send_can_command`, `ss2_send_can_command`. -/
def send : Subsystem → McanTxElement → Byte → Word → Node → Option (StatusCode × Node)
  | .ss1 => ss1SendCanCommand
  | .ss2 => ss2SendCanCommand

theorem send_eq (ss : Subsystem) : ss.send = sendCanCommand ss.canId := by
  cases ss <;> rfl

theorem canId_lt (ss : Subsystem) : ss.canId.toNat < 2 ^ 11 := by
  cases ss <;> decide

end Subsystem

/-- What a command frame says. -/
structure CommandContent where
  canId : Nat
  dlc : Nat
  cmdId : Byte
  payload : Nat
deriving DecidableEq

def decodeCommand (e : McanTxElement) : CommandContent where
  canId := e.standardIdField.toNat
  dlc := e.dlc.toNat
  cmdId := e.data[0]
  payload := e.data[1].toNat * 2 ^ 16 + e.data[2].toNat * 2 ^ 8 + e.data[3].toNat

/-! ## The payload bytes -/

/-- Masking a byte of a word and shifting it down reads an eight-bit field. -/
theorem maskedByte (p : Word) (lo : Nat) (h : lo + 8 ≤ 32) :
    ((p &&& (0xFF#32 <<< lo)) >>> lo).setWidth 8 = field lo 8 p := by
  apply BitVec.eq_of_getLsbD_eq
  intro i hi
  have hmask : (0xFF#32).getLsbD i = true := by
    have : ∀ i, i < 8 → (0xFF#32).getLsbD i = true := by decide
    exact this i hi
  rw [getLsbD_field, BitVec.getLsbD_setWidth, BitVec.getLsbD_ushiftRight, BitVec.getLsbD_and,
    BitVec.getLsbD_shiftLeft, Nat.add_sub_cancel_left, hmask]
  simp [hi, show lo + i < 32 by omega]

theorem canMessage_bytes (cmdId : Byte) (payload : Word) :
    canMessage cmdId payload = [cmdId, field 16 8 payload, field 8 8 payload, field 0 8 payload] := by
  have h2 := maskedByte payload 16 (by omega)
  have h1 := maskedByte payload 8 (by omega)
  have h0 := maskedByte payload 0 (by omega)
  rw [canMessage, ← h2, ← h1, ← h0]
  simp

/-- The three bytes put together again. -/
theorem payload_bytes (p : Word) :
    (field 16 8 p).toNat * 2 ^ 16 + (field 8 8 p).toNat * 2 ^ 8 + (field 0 8 p).toNat =
      p.toNat % 2 ^ 24 := by
  simp only [field, BitVec.extractLsb'_toNat, Nat.shiftRight_eq_div_pow]
  omega

/-- Payloads that agree modulo `2 ^ 24` give the same bytes. -/
theorem canMessage_congr (cmdId : Byte) {p q : Word} (h : p.toNat % 2 ^ 24 = q.toNat % 2 ^ 24) :
    canMessage cmdId p = canMessage cmdId q := by
  have hf : field 16 8 p = field 16 8 q ∧ field 8 8 p = field 8 8 q ∧ field 0 8 p = field 0 8 q := by
    simp only [← BitVec.toNat_inj, field, BitVec.extractLsb'_toNat, Nat.shiftRight_eq_div_pow]
    omega
  obtain ⟨h2, h1, h0⟩ := hf
  rw [canMessage_bytes, canMessage_bytes, h2, h1, h0]

/-! ## Encoding -/

theorem decodeCommand_callFrame {e : McanTxElement} {canId : Word} {cmdId : Byte} {payload : Word}
    (h : e.frame = callFrame canId 4#8 (canMessage cmdId payload)) (hid : canId.toNat < 2 ^ 11) :
    decodeCommand e =
      { canId := canId.toNat, dlc := 4, cmdId := cmdId, payload := payload.toNat % 2 ^ 24 } := by
  obtain ⟨_, hidf, hdlc⟩ := callFrame_fields h
  obtain ⟨_, hbytes⟩ := callFrame_bytes h (by decide)
  rw [canMessage_bytes] at hbytes
  have hget : ∀ i, i < 4 → e.data[i]? =
      [cmdId, field 16 8 payload, field 8 8 payload, field 0 8 payload][i]? :=
    fun i hi => data_of_take hbytes hi
  obtain ⟨_, h0⟩ := Vector.getElem?_eq_some_iff.mp (hget 0 (by omega))
  obtain ⟨_, h1⟩ := Vector.getElem?_eq_some_iff.mp (hget 1 (by omega))
  obtain ⟨_, h2⟩ := Vector.getElem?_eq_some_iff.mp (hget 2 (by omega))
  obtain ⟨_, h3⟩ := Vector.getElem?_eq_some_iff.mp (hget 3 (by omega))
  have hcan : (canId.setWidth 11).toNat = canId.toNat := by
    rw [BitVec.toNat_setWidth, Nat.mod_eq_of_lt hid]
  have hdlc4 : ((4#8).setWidth 4).toNat = 4 := rfl
  rw [decodeCommand, hidf, hdlc, hcan, hdlc4, h0, h1, h2, h3, payload_bytes]

/-- Out of configuration mode an encoder replaces Tx buffer 0 and no other. -/
theorem send_of_sendable (ss : Subsystem) (stack : McanTxElement) (cmdId : Byte) (payload : Word)
    {s : Node} (h : sendable s = true) :
    ∃ e s', ss.send stack cmdId payload s = some (.statusOk, s') ∧
      e.frame = callFrame ss.canId 4#8 (canMessage cmdId payload) ∧
      s'.mcan.txBuffer = Function.update s.mcan.txBuffer 0 e := by
  have hlen : (4#8).toNat ≤ (canMessage cmdId payload).length := by simp [canMessage]
  obtain ⟨r, hr⟩ := canTxMessage_isSome ss.canId 4#8 stack s (by decide) hlen
  obtain ⟨e, he, hcase⟩ := canTxMessage_some hr
  simp only [sendable, Bool.and_eq_true, Bool.not_eq_true', decide_eq_true_eq] at h
  rcases hcase with ⟨hw, _⟩ | ⟨_, hc, _⟩ | ⟨_, _, rfl⟩
  · rw [h.1] at hw
    cases hw
  · rw [h.2] at hc
    cases hc
  · exact ⟨e, _, by rw [ss.send_eq]; exact hr, he, rfl⟩

/-- **Command frames.** Both encoders put into Tx buffer 0 a classic standard data frame that reads
back as the subsystem's CAN id, four bytes, the command and its payload modulo `2 ^ 24`; they leave
the other Tx buffers alone; and calls that agree on the command and on the payload modulo `2 ^ 24`
describe the same frame, whatever the stack and the message RAM held. -/
theorem command_frames_round_trip (ss : Subsystem) (stack : McanTxElement) (cmdId : Byte)
    (payload : Word) {s : Node} (h : sendable s = true) :
    ∃ s', ss.send stack cmdId payload s = some (.statusOk, s') ∧
      decodeCommand (s'.mcan.txBuffer 0) =
        { canId := ss.canId.toNat, dlc := 4, cmdId := cmdId, payload := payload.toNat % 2 ^ 24 } ∧
      (s'.mcan.txBuffer 0).ClassicStandard ∧
      (∀ k, k ≠ 0 → s'.mcan.txBuffer k = s.mcan.txBuffer k) ∧
      ∀ (stack' : McanTxElement) (payload' : Word) (t t' : Node), sendable t = true →
        payload'.toNat % 2 ^ 24 = payload.toNat % 2 ^ 24 →
        ss.send stack' cmdId payload' t = some (.statusOk, t') →
        (t'.mcan.txBuffer 0).frame = (s'.mcan.txBuffer 0).frame := by
  obtain ⟨e, s', hsend, hframe, hbuf⟩ := send_of_sendable ss stack cmdId payload h
  have h0 : s'.mcan.txBuffer 0 = e := by rw [hbuf, Function.update_self]
  refine ⟨s', hsend, ?_, ?_, ?_, ?_⟩
  · rw [h0]
    exact decodeCommand_callFrame hframe ss.canId_lt
  · rw [h0]
    exact (callFrame_fields hframe).1
  · intro k hk
    rw [hbuf, Function.update_of_ne hk]
  · intro stack' payload' t t' ht hp hsend'
    obtain ⟨e', t1, hsend1, hframe', hbuf'⟩ := send_of_sendable ss stack' cmdId payload' ht
    rw [hsend1] at hsend'
    cases hsend'
    rw [hbuf', Function.update_self, h0, hframe', hframe, canMessage_congr cmdId hp]

/-- Command 2 with a payload of more than 24 bits, right after start-up. -/
theorem command_frames_round_trip_boot :
    ∃ s', ss1SendCanCommand blankTxElement 2#8 0xFF010203#32 (boot reset) =
        some (.statusOk, s') ∧
      decodeCommand (s'.mcan.txBuffer 0) =
        { canId := 0x45A, dlc := 4, cmdId := 2#8, payload := 0x010203 } := by
  obtain ⟨s', hsend, hdecode, _⟩ :=
    command_frames_round_trip .ss1 blankTxElement 2#8 0xFF010203#32 (s := boot reset) (by decide)
  exact ⟨s', hsend, hdecode⟩

end CanNet
