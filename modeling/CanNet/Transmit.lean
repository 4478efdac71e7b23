import CanNet.Node

/-!
# CanNet.Transmit

The transmit side over whole runs: what has been sent, what is still pending, and what the
callers of `can_tx_message` were told.

A run may hold any event but bus-off. A call does not look at the request bit of Tx buffer 0, so
an accepted frame survives exactly as long as no call is made while it waits for the bus.
-/

namespace CanNet

open Bits

def pendingFrame (s : Node) : List TxFrame :=
  if s.mcan.txPending then [(s.mcan.txBuffer 0).frame] else []

/-- The frames on the bus so far and the pending one are the accepted ones, in order. -/
def TxHistory (s : Node) : Prop :=
  sentFrames s.trace ++ pendingFrame s = acceptedFrames s.trace

instance : DecidablePred TxHistory := fun s =>
  inferInstanceAs (Decidable (sentFrames s.trace ++ pendingFrame s = acceptedFrames s.trace))

def noBusOff (_ : Node) : NodeEvent → Bool
  | .busOff => false
  | _ => true

/-- No call of `can_tx_message` finds a transmit request pending. -/
def CalledWhenFree (s : Node) : NodeEvent → Prop
  | .txMessage .. => s.mcan.txPending = false
  | _ => True

/-! ## What the rest of the node leaves alone -/

/-- Nothing on the transmit side differs. -/
structure TxSame (s t : Node) : Prop where
  hw : t.hw = s.hw
  cccr : t.mcan.cccr = s.mcan.cccr
  txbrp : t.mcan.txbrp = s.mcan.txbrp
  txBuffer : t.mcan.txBuffer = s.mcan.txBuffer
  accepted : acceptedFrames t.trace = acceptedFrames s.trace
  sent : sentFrames t.trace = sentFrames s.trace

theorem TxSame.refl (s : Node) : TxSame s s := ⟨rfl, rfl, rfl, rfl, rfl, rfl⟩

theorem TxSame.trans {s t u : Node} (h : TxSame s t) (k : TxSame t u) : TxSame s u where
  hw := k.hw.trans h.hw
  cccr := k.cccr.trans h.cccr
  txbrp := k.txbrp.trans h.txbrp
  txBuffer := k.txBuffer.trans h.txBuffer
  accepted := k.accepted.trans h.accepted
  sent := k.sent.trans h.sent

/-- Observations other than accepted and sent frames are not about the transmit side. -/
theorem TxSame.of_emit {s t : Node} {o : Obs} (htrace : t.trace = s.trace ++ [o])
    (hacc : acceptedFrames [o] = []) (hsent : sentFrames [o] = []) (hw : t.hw = s.hw)
    (hcccr : t.mcan.cccr = s.mcan.cccr) (htxbrp : t.mcan.txbrp = s.mcan.txbrp)
    (htxBuffer : t.mcan.txBuffer = s.mcan.txBuffer) : TxSame s t where
  hw := hw
  cccr := hcccr
  txbrp := htxbrp
  txBuffer := htxBuffer
  accepted := by rw [htrace, acceptedFrames_append, hacc, List.append_nil]
  sent := by rw [htrace, sentFrames_append, hsent, List.append_nil]

theorem txSame_foldl_serviceRxBuffer (ks : List Nat) :
    ∀ s : Node, TxSame s (ks.foldl serviceRxBuffer s) := by
  induction ks with
  | nil => intro s; exact TxSame.refl s
  | cons k ks ih =>
    intro s
    have hone : TxSame s (serviceRxBuffer s k) := .of_emit rfl rfl rfl rfl rfl rfl rfl
    exact hone.trans (ih (serviceRxBuffer s k))

theorem txSame_rxBufferBranch (s : Node) : TxSame s (rxBufferBranch s) := by
  rw [rxBufferBranch]
  refine TxSame.trans ?_ (txSame_foldl_serviceRxBuffer _ _)
  exact ⟨rfl, rfl, rfl, rfl, rfl, rfl⟩

theorem txSame_fifo0Branch (s : Node) : TxSame s (fifo0Branch s) :=
  .of_emit rfl rfl rfl rfl rfl rfl rfl

theorem txSame_fifo1Branch (s : Node) : TxSame s (fifo1Branch s) :=
  .of_emit rfl rfl rfl rfl rfl rfl rfl

theorem txSame_protocolErrorBranch (s : Node) : TxSame s (protocolErrorBranch s) :=
  .of_emit rfl rfl rfl rfl rfl rfl rfl

/-- A handler run that finds no bus-off does not touch the transmit side. -/
theorem txSame_handler {s : Node} (h : has s.mcan.ir mcanBusOff = false) :
    TxSame s (mcan1Int0Handler s) := by
  apply mcan1Int0Handler_keeps (Q := TxSame s) (TxSame.refl s)
  · intro t ht; exact ht.trans (txSame_rxBufferBranch t)
  · intro t ht; exact ht.trans (txSame_fifo0Branch t)
  · intro _ t ht; exact ht.trans (txSame_fifo1Branch t)
  · intro t ht; exact ht.trans (txSame_protocolErrorBranch t)
  · intro hb; rw [h] at hb; cases hb

/-! ## The invariant -/

/-- The history holds, a pending request was made by an initialised module that can still
transmit, and no bus-off is pending. -/
structure TxInv (s : Node) : Prop where
  history : TxHistory s
  able : s.mcan.txPending = true → s.hw = .mcan1 ∧ s.mcan.cceBit = false
  onBus : has s.mcan.ir mcanBusOff = false

theorem TxInv.of_same {s t : Node} (h : TxInv s) (hs : TxSame s t)
    (hb : has t.mcan.ir mcanBusOff = false) : TxInv t where
  history := by
    have hp : pendingFrame t = pendingFrame s := by
      rw [pendingFrame, pendingFrame, Mcan.txPending, Mcan.txPending, hs.txbrp, hs.txBuffer]
    rw [TxHistory, hs.sent, hs.accepted, hp]
    exact h.history
  able hp := by
    rw [Mcan.txPending, hs.txbrp] at hp
    rw [hs.hw, Mcan.cceBit, hs.cccr]
    exact h.able hp
  onBus := hb

/-- A request that is pending goes out with the next bus step. -/
theorem TxInv.busStep {s s' : Node} (h : TxInv s) (hs : nodeMachine.step s .busStep = some s') :
    TxInv s' := by
  obtain ⟨hp, rfl⟩ := busStep_step hs
  have hclear : (s.mcan.txbrp &&& ~~~1#32).getLsbD 0 = false := by simp
  refine ⟨?_, fun hc => ?_, h.onBus⟩
  · have hist := h.history
    simp only [TxHistory, pendingFrame, hp, if_true] at hist
    simp only [TxHistory, pendingFrame, Mcan.txPending, Node.emit_mcan, Node.onMcan_mcan, hclear,
      Node.emit_trace, Node.onMcan_trace, sentFrames_append, acceptedFrames_append]
    simpa [sentFrames, acceptedFrames] using hist
  · simp only [Mcan.txPending, Node.emit_mcan, Node.onMcan_mcan, hclear] at hc
    cases hc

/-- An accepted call made while no request is pending adds its frame at the end. -/
theorem TxInv.txMessage {s s' : Node} {idValue : Word} {length : Byte} {data : List Byte}
    {txElement : McanTxElement} (h : TxInv s) (hfree : s.mcan.txPending = false)
    (hs : nodeMachine.step s (.txMessage idValue length data txElement) = some s') : TxInv s' := by
  have hist := h.history
  simp only [TxHistory, pendingFrame, hfree, if_false, Bool.false_eq_true, List.append_nil] at hist
  obtain ⟨e, he, hcase⟩ := txMessage_step hs
  rcases hcase with ⟨_, rfl⟩ | ⟨_, _, rfl⟩ | ⟨hw, hc, rfl⟩
  · exact h
  · have hf : (s.onMcan fun m =>
        { m with txBuffer := Function.update m.txBuffer 0 e }).mcan.txPending = false := hfree
    refine ⟨?_, fun hp => ?_, h.onBus⟩
    · simp only [TxHistory, pendingFrame, hf, if_false, Bool.false_eq_true, List.append_nil]
      exact hist
    · rw [hf] at hp; cases hp
  · have hset : (s.mcan.txbrp ||| 1#32).getLsbD 0 = true := by simp
    refine ⟨?_, fun _ => ⟨hw, hc⟩, h.onBus⟩
    simp only [TxHistory, pendingFrame, Mcan.txPending, Node.emit_mcan, Node.onMcan_mcan, hset,
      if_true, Function.update_self, he, Node.emit_trace, Node.onMcan_trace,
      sentFrames_append, acceptedFrames_append, hist]
    simp [sentFrames, acceptedFrames]

/-- A call made while a request is pending is accepted as well, and its frame takes the place of
the one that waits. -/
theorem TxInv.overwritten {s s' : Node} {idValue : Word} {length : Byte} {data : List Byte}
    {txElement : McanTxElement} (h : TxInv s) (hp : s.mcan.txPending = true)
    (hs : nodeMachine.step s (.txMessage idValue length data txElement) = some s') :
    ¬ TxHistory s' := by
  have hist := congrArg List.length h.history
  simp only [pendingFrame, hp, if_true, List.length_append, List.length_singleton] at hist
  obtain ⟨hw, hc⟩ := h.able hp
  obtain ⟨e, he, hcase⟩ := txMessage_step hs
  rcases hcase with ⟨hn, _⟩ | ⟨_, hc', _⟩ | ⟨_, _, rfl⟩
  · rw [hw] at hn; cases hn
  · rw [hc] at hc'; cases hc'
  · intro hbad
    have hset : (s.mcan.txbrp ||| 1#32).getLsbD 0 = true := by simp
    have hlen := congrArg List.length hbad
    simp only [pendingFrame, Mcan.txPending, Node.emit_mcan, Node.onMcan_mcan, hset, if_true,
      Node.emit_trace, Node.onMcan_trace, sentFrames_append, acceptedFrames_append,
      List.length_append, List.length_singleton] at hlen
    simp [sentFrames, acceptedFrames] at hlen hist
    omega

theorem TxInv.step {s s' : Node} {e : NodeEvent} (h : TxInv s) (hc : CalledWhenFree s e)
    (hs : (nodeMachine.only noBusOff).step s e = some s') : TxInv s' := by
  obtain ⟨hk, hs⟩ := Machine.only_step.mp hs
  have hne : e ≠ .busOff := by
    rintro rfl
    cases hk
  have hbus : has s'.mcan.ir mcanBusOff = false :=
    flag_clear_step h.onBus (raisedBy_busOff hne) hs
  cases e with
  | txMessage idValue length data txElement => exact h.txMessage hc hs
  | busStep => exact h.busStep hs
  | rxBuffer k e =>
    cases hs
    exact h.of_same (.of_emit rfl rfl rfl rfl rfl rfl rfl) hbus
  | rxFifo0 e =>
    cases hs
    exact h.of_same (.of_emit rfl rfl rfl rfl rfl rfl rfl) hbus
  | rxFifo1 e =>
    cases hs
    exact h.of_same (.of_emit rfl rfl rfl rfl rfl rfl rfl) hbus
  | busOff => exact absurd rfl hne
  | raise flags =>
    cases hs
    exact h.of_same ⟨rfl, rfl, rfl, rfl, rfl, rfl⟩ hbus
  | handler =>
    cases hs
    exact h.of_same (txSame_handler h.onBus) hbus

/-! ## The history of a run -/

/-- Before the first call and the first bus step. -/
structure TxFresh (s : Node) : Prop where
  free : s.mcan.txPending = false
  onBus : has s.mcan.ir mcanBusOff = false
  trace : s.trace = []

theorem TxFresh.inv {s : Node} (h : TxFresh s) : TxInv s where
  history := by simp [TxHistory, pendingFrame, h.free, h.trace, sentFrames, acceptedFrames]
  able hp := by rw [h.free] at hp; cases hp
  onBus := h.onBus

/-- **Transmit history.** No accepted frame is lost or sent twice exactly when no call is made
while an earlier frame waits. -/
theorem tx_history_iff {s : Node} (h : TxFresh s) (es : List NodeEvent) :
    (nodeMachine.only noBusOff).Always TxHistory s es ↔
      (nodeMachine.only noBusOff).EachStep CalledWhenFree s es := by
  refine Machine.always_iff_eachStep (I := TxInv) (fun _ hi => hi.history)
    (fun _ _ _ hi hc hs => hi.step hc hs) (fun t e t' hi hc hs => ?_) h.inv
  cases e with
  | txMessage idValue length data txElement =>
    exact hi.overwritten (Bool.not_eq_false _ ▸ hc) (Machine.only_step.mp hs).2
  | _ => exact absurd trivial hc

theorem txFresh_boot : TxFresh (boot reset) where
  free := by decide
  onBus := by decide
  trace := rfl

/-- One call, one bus step. -/
theorem tx_history_in_turn :
    (nodeMachine.only noBusOff).Always TxHistory (boot reset)
      [.txMessage ss1CanId 4#8 [2#8, 0#8, 0#8, 0#8] blankTxElement, .busStep] := by
  refine (tx_history_iff txFresh_boot _).mpr ?_
  intro s1 _
  refine ⟨txFresh_boot.free, ?_⟩
  intro s2 _
  exact ⟨trivial, trivial⟩

/-- The four calls one `telemetry_update` makes: of four accepted frames the last is left. -/
theorem tx_history_telemetry :
    ¬ (nodeMachine.only noBusOff).Always TxHistory (boot reset)
      [.txMessage ss1CanId 4#8 [2#8, 0#8, 0#8, 0#8] blankTxElement,
       .txMessage ss1CanId 4#8 [3#8, 0#8, 0#8, 0#8] blankTxElement,
       .txMessage ss2CanId 4#8 [2#8, 0#8, 0#8, 0#8] blankTxElement,
       .txMessage ss2CanId 4#8 [3#8, 0#8, 0#8, 0#8] blankTxElement] := by
  apply Machine.not_always_of_run
  decide

end CanNet
