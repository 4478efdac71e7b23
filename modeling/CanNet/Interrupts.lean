import CanNet.Acceptance

/-!
# CanNet.Interrupts

Which interrupt sources the calls of `can_controller.c` leave enabled, against what the handler
services and what `can_stop` switches off.

Every call changes `MCAN_IE` by clearing one mask and setting another, `disables` and `enables`;
both results are about these masks over arbitrary sequences of calls.
-/

namespace CanNet

open Bits

/-! ## The calls -/

inductive CanCall where
  | init
  | start
  | stop
  | enableIrq
  | disableIrq
  | filter (c : FilterCall)
deriving DecidableEq

namespace CanCall

def run : CanCall → Node → Node
  | .init => canInit
  | .start => canStart
  | .stop => canStop
  | .enableIrq => canEnableIrq
  | .disableIrq => canDisableIrq
  | .filter c => c.run

def runAll (calls : List CanCall) (s : Node) : Node := calls.foldl (fun s c => c.run s) s

end CanCall

/-- The sources `can_disable_irq` switches off. -/
def disabledSources : Word := mcanFormatError ||| mcanAcknowledgeError ||| mcanBusOff

/-- The sources of received messages, which nothing switches off. -/
def receiveSources : Word :=
  mcanRxBufferNewMessage ||| mcanRxFifo0NewMessage ||| mcanRxFifo1NewMessage

/-- The six sources the handler services. -/
def servicedSources : Word := disabledSources ||| receiveSources

def FilterCall.enables : FilterCall → Word
  | .standardBuffer .. | .extendedBuffer .. => mcanRxBufferNewMessage
  | .standardFifo .. => mcanRxFifo0NewMessage
  | .extendedFifo .. => mcanRxFifo1NewMessage

namespace CanCall

def enables : CanCall → Word
  | .init | .stop | .disableIrq => 0#32
  | .start | .enableIrq => disabledSources ||| mcanRxBufferNewMessage
  | .filter c => c.enables

def disables : CanCall → Word
  | .stop | .disableIrq => disabledSources
  | .init | .start | .enableIrq | .filter _ => 0#32

end CanCall

/-! ## What each call and the handler do to the interrupt enable register -/

theorem configure_ie {f : Mcan → Mcan} (h : ∀ m, (f m).ie = m.ie) (m : Mcan) :
    (m.configure f).ie = m.ie := by
  unfold Mcan.configure
  split
  · exact h m
  · rfl

theorem orCccrIf_ie (b : Bool) (bits : Word) (m : Mcan) : (orCccrIf b bits m).ie = m.ie := by
  unfold orCccrIf
  split
  · exact Mcan.writeCccr_ie _ m
  · rfl

theorem mcanSetConfiguration_ie (config : McanConfig) (m : Mcan) :
    (mcanSetConfiguration config m).ie = m.ie := by
  refine (configure_ie ?_ _).trans ?_
  · intro m
    rfl
  · rw [orCccrIf_ie, orCccrIf_ie, orCccrIf_ie]

theorem canInit_ie (s : Node) : (canInit s).mcan.ie = s.mcan.ie := by
  rw [canInit, mcanInit, Node.onMcan_mcan, mcanSetConfiguration_ie]
  refine (configure_ie ?_ _).trans ?_
  · intro m
    rfl
  · exact Mcan.writeCccr_ie _ _

theorem mcanSetRxStandardFilter_ie (w : Word) (index : Nat) (s : Node) :
    (mcanSetRxStandardFilter w index s).2.mcan.ie = s.mcan.ie := by
  unfold mcanSetRxStandardFilter
  cases s.hw <;> rfl

theorem mcanSetRxExtendedFilter_ie (w : Word × Word) (index : Nat) (s : Node) :
    (mcanSetRxExtendedFilter w index s).2.mcan.ie = s.mcan.ie := by
  unfold mcanSetRxExtendedFilter
  cases s.hw <;> rfl

theorem FilterCall.run_ie (c : FilterCall) (s : Node) :
    (c.run s).mcan.ie = s.mcan.ie ||| c.enables := by
  cases c with
  | standardBuffer idValue bufferIdx idx | standardFifo idValue idx =>
    exact congrArg (· ||| _) (mcanSetRxStandardFilter_ie _ idx s)
  | extendedBuffer idValue bufferIdx idx | extendedFifo idValue idx =>
    exact congrArg (· ||| _) (mcanSetRxExtendedFilter_ie _ idx s)

/-- Every call clears one mask and sets another. -/
theorem CanCall.run_ie (c : CanCall) (s : Node) :
    (c.run s).mcan.ie = (s.mcan.ie &&& ~~~c.disables) ||| c.enables := by
  cases c with
  | init =>
    show (canInit s).mcan.ie = (s.mcan.ie &&& ~~~0#32) ||| 0#32
    rw [clear_none, BitVec.or_zero, canInit_ie]
  | start =>
    have h : (mcanStart s).mcan.ie = s.mcan.ie := Mcan.writeCccr_ie _ _
    show (mcanStart s).mcan.ie ||| _ = (s.mcan.ie &&& ~~~0#32) ||| _
    rw [clear_none, h]
    rfl
  | stop =>
    have h : (mcanStop s).mcan.ie = s.mcan.ie := Mcan.writeCccr_ie _ _
    show (mcanStop s).mcan.ie &&& ~~~_ = (s.mcan.ie &&& ~~~disabledSources) ||| 0#32
    rw [BitVec.or_zero, h]
    rfl
  | enableIrq =>
    show s.mcan.ie ||| _ = (s.mcan.ie &&& ~~~0#32) ||| _
    rw [clear_none]
    rfl
  | disableIrq =>
    show s.mcan.ie &&& ~~~_ = (s.mcan.ie &&& ~~~disabledSources) ||| 0#32
    rw [BitVec.or_zero]
    rfl
  | filter c =>
    show (c.run s).mcan.ie = (s.mcan.ie &&& ~~~0#32) ||| c.enables
    rw [clear_none, c.run_ie]

theorem handler_ie (s : Node) : (mcan1Int0Handler s).mcan.ie = s.mcan.ie := by
  refine mcan1Int0Handler_keeps (Q := fun t => t.mcan.ie = s.mcan.ie) rfl ?_ ?_ ?_ ?_ ?_
  · intro t ht
    rw [rxBufferBranch, foldl_serviceRxBuffer_mcan]
    exact ht
  · intro t ht
    exact ht
  · intro _ t ht
    exact ht
  · intro t ht
    exact ht
  · intro _ t ht
    obtain ⟨_, _, _, hm⟩ := busOffBranch_mcan t
    rw [hm]
    exact ht

/-! ## No enabled source stays pending -/

theorem CanCall.enables_serviced (c : CanCall) : c.enables &&& ~~~servicedSources = 0#32 := by
  cases c with
  | filter c => cases c <;> simp only [CanCall.enables, FilterCall.enables] <;> decide
  | _ => decide

theorem CanCall.run_serviced (c : CanCall) {s : Node}
    (h : s.mcan.ie &&& ~~~servicedSources = 0#32) :
    (c.run s).mcan.ie &&& ~~~servicedSources = 0#32 := by
  have hclear : (s.mcan.ie &&& ~~~c.disables) &&& ~~~servicedSources = 0#32 := by
    rw [BitVec.and_assoc, BitVec.and_comm (~~~c.disables), ← BitVec.and_assoc, h, BitVec.zero_and]
  rw [c.run_ie, BitVec.and_comm, BitVec.and_or_distrib_left, BitVec.and_comm _ c.enables,
    c.enables_serviced, BitVec.and_comm, hclear, BitVec.or_zero]

/-- No sequence of calls enables a source the handler does not service. -/
theorem runAll_serviced {calls : List CanCall} :
    ∀ {s : Node}, s.mcan.ie &&& ~~~servicedSources = 0#32 →
      (CanCall.runAll calls s).mcan.ie &&& ~~~servicedSources = 0#32 := by
  induction calls with
  | nil => intro s h; exact h
  | cons c calls ih => intro s h; exact ih (c.run_serviced h)

/-- What a run clears of the flags it finds are the serviced ones. -/
theorem clear_handledFlags (ir : Word) : ir &&& ~~~(handledFlags ir) = ir &&& ~~~servicedSources := by
  have herr : ir &&& ~~~(if has ir mcanAcknowledgeError || has ir mcanFormatError then
      mcanAcknowledgeError ||| mcanFormatError else 0#32) =
      ir &&& ~~~(mcanAcknowledgeError ||| mcanFormatError) := by
    rw [← has_or_mask]
    exact clear_if_has ir _
  have hall := clear_or_congr (clear_or_congr (clear_or_congr (clear_or_congr
    (clear_if_has ir mcanRxBufferNewMessage) (clear_if_has ir mcanRxFifo0NewMessage))
    (clear_if_has ir mcanRxFifo1NewMessage)) herr) (clear_if_has ir mcanBusOff)
  have hmask : mcanRxBufferNewMessage ||| mcanRxFifo0NewMessage ||| mcanRxFifo1NewMessage |||
      (mcanAcknowledgeError ||| mcanFormatError) ||| mcanBusOff = servicedSources := rfl
  rw [handledFlags, hall, hmask]

/-- The node with any content of the interrupt register. -/
def Node.withIr (ir : Word) (s : Node) : Node := s.onMcan fun m => { m with ir := ir }

/-- Whatever calls were made from `MCAN_IE = 0` and whatever is pending, after a handler run no
enabled source is pending, and the flags that were cleared are the pending ones of the six serviced
sources. -/
theorem handler_no_storm {s : Node} (h : s.mcan.ie = 0#32) (calls : List CanCall) (ir : Word) :
    (mcan1Int0Handler ((CanCall.runAll calls s).withIr ir)).mcan.ir &&&
        (mcan1Int0Handler ((CanCall.runAll calls s).withIr ir)).mcan.ie = 0#32 ∧
      ir &&& ~~~(mcan1Int0Handler ((CanCall.runAll calls s).withIr ir)).mcan.ir =
        ir &&& servicedSources ∧
      (mcan1Int0Handler ((CanCall.runAll calls s).withIr ir)).mcan.ir &&& ~~~ir = 0#32 := by
  have hie : (CanCall.runAll calls s).mcan.ie &&& ~~~servicedSources = 0#32 :=
    runAll_serviced (by rw [h, BitVec.zero_and])
  have hir : (mcan1Int0Handler ((CanCall.runAll calls s).withIr ir)).mcan.ir =
      ir &&& ~~~servicedSources := by
    rw [handler_ir]
    exact clear_handledFlags ir
  have hie' : (mcan1Int0Handler ((CanCall.runAll calls s).withIr ir)).mcan.ie =
      (CanCall.runAll calls s).mcan.ie := handler_ie _
  rw [hir, hie']
  refine ⟨?_, ?_, ?_⟩
  · rw [BitVec.and_assoc, BitVec.and_comm (~~~servicedSources), hie, BitVec.and_zero]
  · ext i hi
    simp only [BitVec.getElem_and, BitVec.getElem_not]
    cases ir[i] <;> simp
  · ext i hi
    simp only [BitVec.getElem_and, BitVec.getElem_not]
    cases ir[i] <;> simp

/-- After start-up and a filter for FIFO 0, with every flag pending. -/
def everythingPending : Node :=
  (CanCall.runAll [.init, .start, .filter (.standardFifo selfCanId 1)] reset).withIr 0xFFFFFFFF#32

theorem handler_no_storm_boot :
    (mcan1Int0Handler everythingPending).mcan.ir &&& (mcan1Int0Handler everythingPending).mcan.ie =
        0#32 ∧
      0xFFFFFFFF#32 &&& ~~~(mcan1Int0Handler everythingPending).mcan.ir =
        0xFFFFFFFF#32 &&& servicedSources := by
  obtain ⟨hquiet, hcleared, _⟩ := handler_no_storm (s := reset) rfl
    [.init, .start, .filter (.standardFifo selfCanId 1)] 0xFFFFFFFF#32
  exact ⟨hquiet, hcleared⟩

/-! ## What `can_stop` leaves enabled -/

/-- A call that enables a source of received messages. -/
def CanCall.enabling : CanCall → Bool
  | .start | .enableIrq | .filter _ => true
  | .init | .stop | .disableIrq => false

theorem CanCall.run_receive (c : CanCall) (s : Node) :
    has (c.run s).mcan.ie receiveSources = (has s.mcan.ie receiveSources || c.enabling) := by
  have hoff : c.disables &&& receiveSources = 0#32 := by
    cases c <;> simp only [CanCall.disables] <;> decide
  have hon : has c.enables receiveSources = c.enabling := by
    cases c with
    | filter c =>
      cases c <;> simp only [CanCall.enables, FilterCall.enables, CanCall.enabling] <;> decide
    | _ => decide
  rw [c.run_ie, has_or, has_clear_of_disjoint hoff, hon]

theorem runAll_receive {calls : List CanCall} : ∀ s : Node,
    has (CanCall.runAll calls s).mcan.ie receiveSources =
      (has s.mcan.ie receiveSources || calls.any CanCall.enabling) := by
  induction calls with
  | nil => intro s; simp [CanCall.runAll]
  | cons c calls ih =>
    intro s
    have h := ih (c.run s)
    rw [c.run_receive] at h
    rw [List.any_cons, ← Bool.or_assoc]
    exact h

/-- **Stopping.** After a final `can_stop` no source is enabled exactly when no earlier call enables
one of received messages: neither `can_start` nor `can_enable_irq` nor a filter-setting call. -/
theorem stop_silences_iff {s : Node} (h : s.mcan.ie = 0#32) (calls : List CanCall) :
    (CanCall.runAll (calls ++ [.stop]) s).mcan.ie = 0#32 ↔
      ∀ c, c ∈ calls → c = .init ∨ c = .stop ∨ c = .disableIrq := by
  have hie : (CanCall.runAll calls s).mcan.ie &&& ~~~servicedSources = 0#32 :=
    runAll_serviced (by rw [h, BitVec.zero_and])
  have hstop : (CanCall.runAll (calls ++ [.stop]) s).mcan.ie =
      (CanCall.runAll calls s).mcan.ie &&& receiveSources := by
    have hrun : CanCall.runAll (calls ++ [.stop]) s = CanCall.stop.run (CanCall.runAll calls s) := by
      simp [CanCall.runAll]
    rw [hrun, CanCall.run_ie, ← clear_eq_and hie (by decide)]
    exact BitVec.or_zero
  rw [hstop, ← has_eq_false, runAll_receive, h, has_zero, Bool.false_or, List.any_eq_false]
  refine forall₂_congr fun c _ => ?_
  cases c <;> simp [CanCall.enabling]

theorem stop_silences_unstarted :
    (CanCall.runAll ([.init, .disableIrq] ++ [.stop]) reset).mcan.ie = 0#32 :=
  (stop_silences_iff (s := reset) rfl [.init, .disableIrq]).mpr (by simp)

/-- Start-up, then stop: DRX is still enabled. -/
theorem stop_silences_started :
    (CanCall.runAll ([.init, .start] ++ [.stop]) reset).mcan.ie ≠ 0#32 := by
  rw [CanCall.runAll]
  decide

end CanNet
