import CanNet.Lib.Mailbox
import CanNet.Recovery

/-!
# CanNet.TxMailbox

Tx buffer 0 as a mailbox, over runs with any events.

An accepted call puts its frame into the box whatever is inside, and a bus step takes the frame out.
Nothing is assumed of when the calls are made: a frame that is not sent was replaced by a newer one,
or is still in the box, or was dropped by the re-initialisation that follows a bus-off.
-/

namespace CanNet

open Bits

def txLog (trace : List Obs) : List (MailEvent TxFrame) :=
  trace.filterMap fun o =>
    match o with
    | .accepted f => some (.put f)
    | .sent f => some (.take f)
    | _ => none

@[simp] theorem txLog_append (t u : List Obs) : txLog (t ++ u) = txLog t ++ txLog u :=
  List.filterMap_append

/-- Frames on their way in or out. -/
def traffic (trace : List Obs) : List Obs :=
  trace.filter fun o =>
    match o with
    | .accepted _ | .sent _ | .stored _ _ => true
    | _ => false

@[simp] theorem traffic_append (t u : List Obs) : traffic (t ++ u) = traffic t ++ traffic u :=
  List.filter_append t u

/-- The frame that waits for the bus. -/
def txBox (s : Node) : Option TxFrame :=
  if s.mcan.txPending then some (s.mcan.txBuffer 0).frame else none

/-- A controller with INIT set takes no part in the traffic. -/
def onBus (s : Node) : NodeEvent → Bool
  | .busStep | .rxBuffer .. | .rxFifo0 _ | .rxFifo1 _ => !s.mcan.initBit
  | _ => true

/-- The frames sent are, in order, the accepted ones that no newer one replaced, but for one at most:
the one that still waits, as long as the module is out of configuration mode. -/
structure TxDelivery (s : Node) : Prop where
  inOrder : (sentFrames s.trace).Sublist (acceptedFrames s.trace)
  survivors : ∃ box : Option TxFrame,
    sentFrames s.trace ++ box.toList = Mailbox.survivors (txLog s.trace) ∧
      (s.mcan.cceBit = false → box = txBox s)

/-! ## The log -/

theorem takes_txLog (trace : List Obs) : Mailbox.takes (txLog trace) = sentFrames trace := by
  induction trace with
  | nil => rfl
  | cons o trace ih =>
    cases o with
    | sent f => exact congrArg (f :: ·) ih
    | _ => exact ih

theorem puts_txLog (trace : List Obs) : Mailbox.puts (txLog trace) = acceptedFrames trace := by
  induction trace with
  | nil => rfl
  | cons o trace ih =>
    cases o with
    | accepted f => exact congrArg (f :: ·) ih
    | _ => exact ih

theorem txLog_traffic (trace : List Obs) : txLog (traffic trace) = txLog trace := by
  induction trace with
  | nil => rfl
  | cons o trace ih =>
    cases o with
    | accepted f => exact congrArg (.put f :: ·) ih
    | sent f => exact congrArg (.take f :: ·) ih
    | _ => exact ih

theorem traffic_foldl_serviceRxBuffer (ks : List Nat) :
    ∀ s : Node, traffic (ks.foldl serviceRxBuffer s).trace = traffic s.trace := by
  induction ks with
  | nil => intro s; rfl
  | cons k ks ih =>
    intro s
    rw [List.foldl_cons, ih, serviceRxBuffer, Node.emit_trace, traffic_append]
    simp [traffic]

/-- The handler receives, accepts and sends nothing. -/
theorem traffic_handler (s : Node) : traffic (mcan1Int0Handler s).trace = traffic s.trace := by
  have hemit : ∀ {t u : Node} {o : Obs}, traffic t.trace = traffic s.trace →
      u.trace = t.trace ++ [o] → traffic [o] = [] → traffic u.trace = traffic s.trace := by
    intro t u o ht hu ho
    rw [hu, traffic_append, ho, List.append_nil, ht]
  refine mcan1Int0Handler_keeps (Q := fun t => traffic t.trace = traffic s.trace) rfl ?_ ?_ ?_ ?_ ?_
  · intro t ht
    rw [rxBufferBranch, traffic_foldl_serviceRxBuffer]
    exact ht
  · intro t ht
    exact hemit ht rfl rfl
  · intro _ t ht
    exact hemit ht rfl rfl
  · intro t ht
    exact hemit ht rfl rfl
  · intro _ t ht
    exact hemit ht (busOffBranch_trace t) rfl

theorem txLog_handler (s : Node) : txLog (mcan1Int0Handler s).trace = txLog s.trace := by
  rw [← txLog_traffic, traffic_handler, txLog_traffic]

/-- A run that finds bus-off ends with its branch. -/
theorem handler_of_busOff {s : Node} (h : has s.mcan.ir mcanBusOff = true) :
    ∃ t, mcan1Int0Handler s = busOffBranch t := by
  rw [mcan1Int0Handler_eq, h, guarded_true]
  exact ⟨_, rfl⟩

theorem handler_hw {s : Node} (h : s.hw = .mcan1) : (mcan1Int0Handler s).hw = .mcan1 := by
  cases hoff : has s.mcan.ir mcanBusOff with
  | false => exact (txSame_handler hoff).hw.trans h
  | true =>
    obtain ⟨t, ht⟩ := handler_of_busOff hoff
    rw [ht, busOffBranch_hw]

/-- A handler run that finds bus-off drops the request that waits. -/
theorem handler_busOff_free {s : Node} (h : has s.mcan.ir mcanBusOff = true) :
    (mcan1Int0Handler s).mcan.txPending = false := by
  obtain ⟨t, ht⟩ := handler_of_busOff h
  obtain ⟨_, _, _, hm⟩ := busOffBranch_mcan t
  rw [ht, hm]
  simp [Mcan.txPending]

/-! ## The invariant -/

/-- The box of the log is the frame that waits; or a handled bus-off has dropped it, and the module
stays in configuration mode. -/
inductive TxMail (s : Node) : Prop
  | live (hw : s.hw = .mcan1) (hcce : s.mcan.cceBit = false)
      (hbox : Mailbox.replay none (txLog s.trace) = some (txBox s))
  | off (hw : s.hw = .mcan1) (hcce : s.mcan.cceBit = true) (hinit : s.mcan.initBit = true)
      (hfree : s.mcan.txPending = false) (box : Option TxFrame)
      (hbox : Mailbox.replay none (txLog s.trace) = some box)

theorem TxMail.delivery {s : Node} (h : TxMail s) : TxDelivery s := by
  have hbox : ∃ box, Mailbox.replay none (txLog s.trace) = some box ∧
      (s.mcan.cceBit = false → box = txBox s) := by
    cases h with
    | live _ _ hbox => exact ⟨txBox s, hbox, fun _ => rfl⟩
    | off _ hcce _ _ box hbox =>
      refine ⟨box, hbox, fun hc => ?_⟩
      rw [hcce] at hc
      cases hc
  obtain ⟨box, hreplay, hlive⟩ := hbox
  have hsent := Mailbox.takes_eq_survivors hreplay
  rw [takes_txLog] at hsent
  refine ⟨?_, box, hsent, hlive⟩
  rw [← puts_txLog]
  refine List.Sublist.trans ?_ (Mailbox.survivors_sublist (txLog s.trace))
  rw [← hsent]
  exact List.sublist_append_left _ _

/-- A step that is not about the transmit side. -/
theorem TxMail.of_same {s t : Node} (h : TxMail s) (hw : t.hw = s.hw)
    (hinit : t.mcan.initBit = true ∨ t.mcan.initBit = s.mcan.initBit)
    (hcce : t.mcan.cceBit = s.mcan.cceBit) (htxbrp : t.mcan.txbrp = s.mcan.txbrp)
    (htxBuffer : t.mcan.txBuffer = s.mcan.txBuffer) (hlog : txLog t.trace = txLog s.trace) :
    TxMail t := by
  have hfree : t.mcan.txPending = s.mcan.txPending := by rw [Mcan.txPending, htxbrp, Mcan.txPending]
  cases h with
  | live hhw hc hbox =>
    refine .live (hw.trans hhw) (hcce.trans hc) ?_
    rw [hlog, hbox, txBox, txBox, hfree, htxBuffer]
  | off hhw hc hi hf box hbox =>
    refine .off (hw.trans hhw) (hcce.trans hc) ?_ (hfree.trans hf) box (hlog ▸ hbox)
    rcases hinit with ht | ht
    · exact ht
    · exact ht.trans hi

theorem TxMail.txMessage {s s' : Node} {idValue : Word} {length : Byte} {data : List Byte}
    {txElement : McanTxElement} (h : TxMail s)
    (hs : nodeMachine.step s (.txMessage idValue length data txElement) = some s') :
    TxMail s' := by
  obtain ⟨e, he, hcase⟩ := txMessage_step hs
  cases h with
  | live hw hc hbox =>
    rcases hcase with ⟨hn, _⟩ | ⟨_, hc', _⟩ | ⟨_, _, rfl⟩
    · rw [hw] at hn
      cases hn
    · rw [hc] at hc'
      cases hc'
    · have hset : (s.mcan.txbrp ||| 1#32).getLsbD 0 = true := by simp
      refine .live hw hc ?_
      simp only [Node.emit_trace, Node.onMcan_trace, txLog_append, Mailbox.replay_append, hbox,
        txBox, Mcan.txPending, Node.emit_mcan, Node.onMcan_mcan, hset, if_true,
        Function.update_self, he]
      rfl
  | off hw hc hi hf box hbox =>
    rcases hcase with ⟨hn, _⟩ | ⟨_, _, rfl⟩ | ⟨_, hc', _⟩
    · rw [hw] at hn
      cases hn
    · exact .off hw hc hi hf box hbox
    · rw [hc] at hc'
      cases hc'

theorem TxMail.busStep {s s' : Node} (h : TxMail s) (hs : nodeMachine.step s .busStep = some s') :
    TxMail s' := by
  obtain ⟨hp, rfl⟩ := busStep_step hs
  cases h with
  | live hw hc hbox =>
    have hfull : txBox s = some (s.mcan.txBuffer 0).frame := by rw [txBox, if_pos hp]
    have hempty : txBox ((s.onMcan fun m => { m with txbrp := m.txbrp &&& ~~~1#32 }).emit
        (.sent (s.mcan.txBuffer 0).frame)) = none := by
      rw [txBox, if_neg]
      simp [Mcan.txPending]
    refine .live hw hc ?_
    rw [hempty, Node.emit_trace, Node.onMcan_trace, txLog_append, Mailbox.replay_append, hbox, hfull]
    simp [txLog, Mailbox.replay]
  | off hw hc hi hf box hbox =>
    rw [hf] at hp
    cases hp

theorem TxMail.handler {s : Node} (h : TxMail s) : TxMail (mcan1Int0Handler s) := by
  cases hoff : has s.mcan.ir mcanBusOff with
  | false =>
    have hsame := txSame_handler hoff
    refine h.of_same hsame.hw (.inr ?_) ?_ hsame.txbrp hsame.txBuffer (txLog_handler s)
    · rw [Mcan.initBit, hsame.cccr, Mcan.initBit]
    · rw [Mcan.cceBit, hsame.cccr, Mcan.cceBit]
  | true =>
    obtain ⟨hi, hc⟩ := handler_busOff hoff
    have hw : s.hw = .mcan1 := by cases h <;> assumption
    have hbox : ∃ box, Mailbox.replay none (txLog s.trace) = some box := by
      cases h with
      | live _ _ hbox => exact ⟨_, hbox⟩
      | off _ _ _ _ box hbox => exact ⟨box, hbox⟩
    obtain ⟨box, hbox⟩ := hbox
    exact .off (handler_hw hw) hc hi (handler_busOff_free hoff) box (txLog_handler s ▸ hbox)

theorem TxMail.step {s s' : Node} {e : NodeEvent} (h : TxMail s)
    (hs : nodeMachine.step s e = some s') : TxMail s' := by
  cases e with
  | txMessage idValue length data txElement => exact h.txMessage hs
  | busStep => exact h.busStep hs
  | rxBuffer k e | rxFifo0 e | rxFifo1 e =>
    cases hs
    exact h.of_same rfl (.inr rfl) rfl rfl rfl (by simp [txLog])
  | raise flags =>
    cases hs
    exact h.of_same rfl (.inr rfl) rfl rfl rfl rfl
  | busOff =>
    cases hs
    refine h.of_same rfl (.inl ?_) ?_ rfl rfl rfl
    · exact has_or_self (by decide)
    · exact has_or_of_disjoint (by decide)
  | handler =>
    cases hs
    exact h.handler

/-- INIT and CCE are set: the module is off the bus, and refuses every frame. -/
structure Parked (s : Node) : Prop where
  init : s.mcan.initBit = true
  cce : s.mcan.cceBit = true

/-- No event starts the module again. -/
theorem Parked.step {s s' : Node} {e : NodeEvent} (h : Parked s)
    (hs : nodeMachine.step s e = some s') : Parked s' := by
  have hcccr : ∀ {t : Node}, t.mcan.cccr = s.mcan.cccr → Parked t := fun ht =>
    ⟨by rw [Mcan.initBit, ht]; exact h.init, by rw [Mcan.cceBit, ht]; exact h.cce⟩
  cases e with
  | txMessage idValue length data txElement =>
    obtain ⟨e, _, hcase⟩ := txMessage_step hs
    rcases hcase with ⟨_, rfl⟩ | ⟨_, _, rfl⟩ | ⟨_, _, rfl⟩
    · exact h
    · exact hcccr rfl
    · exact hcccr rfl
  | busStep =>
    obtain ⟨_, rfl⟩ := busStep_step hs
    exact hcccr rfl
  | busOff =>
    cases hs
    refine ⟨has_or_self (by decide), ?_⟩
    have hkeep : has (s.mcan.cccr ||| mcanCccrInit) mcanCccrCce = has s.mcan.cccr mcanCccrCce :=
      has_or_of_disjoint (by decide)
    exact hkeep.trans h.cce
  | handler =>
    cases hs
    cases hoff : has s.mcan.ir mcanBusOff with
    | false => exact hcccr (txSame_handler hoff).cccr
    | true =>
      obtain ⟨hi, hc⟩ := handler_busOff hoff
      exact ⟨hi, hc⟩
  | _ =>
    cases hs
    exact hcccr rfl

/-- Nor is anything received, accepted or sent. -/
theorem Parked.traffic {s s' : Node} {e : NodeEvent} (h : Parked s)
    (hs : (nodeMachine.only onBus).step s e = some s') :
    traffic s'.trace = traffic s.trace := by
  obtain ⟨hon, hs⟩ := Machine.only_step.mp hs
  have hoffline : ¬ (!s.mcan.initBit) = true := by rw [h.init]; decide
  cases e with
  | txMessage idValue length data txElement =>
    obtain ⟨e, _, hcase⟩ := txMessage_step hs
    rcases hcase with ⟨_, rfl⟩ | ⟨_, _, rfl⟩ | ⟨_, hc, _⟩
    · rfl
    · rfl
    · rw [h.cce] at hc
      cases hc
  | busStep | rxBuffer k e | rxFifo0 e | rxFifo1 e => exact absurd hon hoffline
  | busOff | raise flags =>
    cases hs
    rfl
  | handler =>
    cases hs
    exact traffic_handler s

theorem txMail_boot {s : Node} (h : PowerOn s) : TxMail (boot s) := by
  obtain ⟨_, _, _, hc, hm⟩ := boot_mcan h
  have hfree : txBox (boot s) = none := by
    rw [txBox, hm]
    simp [Mcan.txPending]
  have htrace : (boot s).trace = [] := h.trace
  refine .live rfl ?_ ?_
  · rw [Mcan.cceBit, hm]
    exact hc
  · rw [htrace, hfree]
    rfl

/-- **What is sent.** In every run from start-up, whenever the calls are made and with any errors and
bus-offs, the frames on the bus are those accepted frames that no newer one replaced before a bus step,
in order and once each; at most the last of them is missing, and that one is the frame still waiting
unless the module went into configuration mode. -/
theorem tx_survivors {s : Node} (h : PowerOn s) (es : List NodeEvent) :
    (nodeMachine.only onBus).Always TxDelivery (boot s) es :=
  Machine.always_mono (fun _ hi => TxMail.delivery hi)
    (Machine.always_of_invariant (I := TxMail)
      (fun _ _ _ hi hs => hi.step (Machine.only_step.mp hs).2) (txMail_boot h))

/-- Of four queries in a row the last one is left; the bus-off that follows drops it. -/
theorem tx_survivors_telemetry :
    (nodeMachine.only onBus).Always TxDelivery (boot reset)
      [.txMessage ss1CanId 4#8 [2#8, 0#8, 0#8, 0#8] blankTxElement,
       .txMessage ss1CanId 4#8 [3#8, 0#8, 0#8, 0#8] blankTxElement, .busStep,
       .txMessage ss2CanId 4#8 [2#8, 0#8, 0#8, 0#8] blankTxElement, .busOff, .handler] :=
  tx_survivors powerOn_reset _

end CanNet
