import CanNet.Console

/-!
# CanNet.ConsoleTraffic

What the program sends, counts and prints along whole runs.

The history of a run is the list of the commands whose frames were offered to the module. A key
offers one, and so does every query of `telemetry_get`; only the first kind goes through the command
counters.
-/

namespace CanNet

open Bits

/-- `typed`: by a key, not by a statement of `telemetry_get`. `taken`: the module accepted the
frame. -/
structure Offer where
  cmdId : Byte
  typed : Bool
  taken : Bool
deriving DecidableEq

def isKey : MasterEvent → Bool
  | .key .. => true
  | _ => false

def offerOf (m : Master) (e : MasterEvent) : Option Offer :=
  (offeredCommand m e).map fun cmdId =>
    { cmdId := cmdId, typed := isKey e, taken := sendable m.node }

/-- The program with the offers it has made. -/
def observedMaster : Machine (Master × List Offer) MasterEvent :=
  masterMachine.withHistory fun offers m e => offers ++ (offerOf m e).toList

/-- The frame of a command. -/
def frameOf (cmdId : Byte) : Option TxFrame :=
  (sentBy cmdId).map fun p => callFrame p.1 4#8 (canMessage p.2 0#32)

def Offer.frame (o : Offer) : Option TxFrame := if o.taken then frameOf o.cmdId else none

/-! ## One step -/

section Offers

variable {m : Master} {e : MasterEvent} {stack : McanTxElement}

theorem offerOf_none (h : offeredCommand m e = none) : offerOf m e = none := by
  rw [offerOf, h]
  rfl

theorem offerOf_printed {key : Char} (h : keyCommand key = none) :
    offerOf m (.key key stack) = none := offerOf_none h

theorem offerOf_key {key : Char} {cmdId : Byte} (h : keyCommand key = some cmdId) :
    offerOf m (.key key stack) =
      some { cmdId := cmdId, typed := true, taken := sendable m.node } := by
  rw [offerOf, offeredCommand, h]
  rfl

theorem offerOf_queried {q : TelemetryQuery} {rest : List TelemetryQuery}
    (h : m.download = some (q :: rest)) : offerOf m (.download stack) =
      some { cmdId := q.cmdId, typed := false, taken := sendable m.node } := by
  rw [offerOf, offeredCommand, h]
  rfl

theorem offerOf_reported (h : m.download = some []) : offerOf m (.download stack) = none := by
  rw [offerOf, offeredCommand, h]
  rfl

end Offers

theorem answered_trace (q : Bool) (canId : Word) (status : StatusCode) (t : Node) :
    (answered q canId status t).trace = t.trace := by
  unfold answered
  split
  · exact ss1ReceiveCanResponse_trace t
  · rfl

theorem recordRequest_trace (s s' : Node) :
    (recordRequest s s').trace = s'.trace ++ ((requestedFrame s s').map Obs.accepted).toList := by
  rw [recordRequest]
  cases requestedFrame s s' with
  | none => exact (List.append_nil _).symm
  | some f => rfl

/-- A command whose frame is offered adds that frame to the accepted ones, or none at all. -/
theorem Sends.accepted {cmdId : Byte} {stack : McanTxElement} {s s' : Node}
    (h : Sends cmdId stack s s') :
    acceptedFrames (recordRequest s s').trace =
      acceptedFrames s.trace ++ (if sendable s then frameOf cmdId else none).toList := by
  obtain ⟨canId, cmd, status, t, hsent, hsend, rfl⟩ := h.sends
  obtain ⟨status', t', h', hcase⟩ := sendCanCommand_cases canId stack cmd 0#32 s
  rw [hsend] at h'
  cases h'
  have hframe : requestedFrame s (answered (isQuery cmdId) canId status t) = requestedFrame s t :=
    requestedFrame_unfiltered (answered_unfiltered _ canId status t)
  rw [recordRequest_trace, hframe, answered_trace, acceptedFrames_append]
  rcases hcase with ⟨hs, _, hreq⟩ | ⟨hs, _, htrace⟩
  · rw [requestedFrame_requested hreq, hreq.trace, hs, if_pos rfl, frameOf, hsent]
    simp [acceptedFrames]
  · rw [requestedFrame_same htrace, htrace, hs]
    rfl

theorem acceptedFrames_step {s s' : Node} {e : NodeEvent}
    (he : ∀ idValue length data txElement, e ≠ .txMessage idValue length data txElement)
    (hs : nodeMachine.step s e = some s') : acceptedFrames s'.trace = acceptedFrames s.trace := by
  cases e with
  | txMessage idValue length data txElement => exact absurd rfl (he idValue length data txElement)
  | busStep =>
    obtain ⟨_, rfl⟩ := busStep_step hs
    simp [acceptedFrames]
  | handler =>
    cases hs
    rw [← puts_txLog, ← puts_txLog, txLog_handler]
  | _ =>
    cases hs
    simp [acceptedFrames]

/-- What is not an offer is not a call of `can_tx_message`. -/
theorem label_not_call {m : Master} {e : MasterEvent} {ev : NodeEvent}
    (hoffer : offeredCommand m e = none) (hlabel : masterLabel m e = some ev) :
    ∀ idValue length data txElement, ev ≠ .txMessage idValue length data txElement := by
  rintro idValue length data txElement rfl
  cases e with
  | key key stack =>
    have hnone : keyCommand key = none := hoffer
    simp only [masterLabel, hnone] at hlabel
    cases hlabel
  | download stack =>
    simp only [masterLabel, offeredCommand] at hlabel hoffer
    split at hlabel
    · rename_i hd
      rw [hd] at hoffer
      cases hoffer
    · cases hlabel
  | standardFrame id e | extendedFrame id e =>
    simp only [masterLabel, receivedEvent] at hlabel
    split at hlabel
    · cases hlabel
    · split at hlabel <;> cases hlabel
    · cases hlabel
    · cases hlabel
  | _ => cases hlabel

/-- A step accepts the frame of its offer and no other. -/
theorem MasterMove.accepted {m m' : Master} {e : MasterEvent} (h : MasterMove m e m') :
    acceptedFrames m'.node.trace =
      acceptedFrames m.node.trace ++ ((offerOf m e).bind Offer.frame).toList := by
  cases h with
  | pressed key stack m' he hidle h =>
    subst he
    cases h with
    | printed texts download hcmd _ _ =>
      rw [offerOf_printed hcmd]
      exact (List.append_nil _).symm
    | executed cmdId text status s' hcmd _ _ hsends =>
      rw [offerOf_key hcmd]
      exact hsends.accepted
  | downloaded stack m' he h =>
    subst he
    cases h with
    | queried q rest s' hdownload hsends =>
      rw [offerOf_queried hdownload]
      exact hsends.accepted
    | reported hdownload =>
      rw [offerOf_reported hdownload]
      exact (List.append_nil _).symm
  | ignored hoffer _ =>
    rw [offerOf_none hoffer]
    exact (List.append_nil _).symm
  | hardware ev s' hoffer hlabel _ hs =>
    rw [offerOf_none hoffer]
    exact (acceptedFrames_step (label_not_call hoffer hlabel) hs).trans (List.append_nil _).symm

/-! ## What is sent -/

/-- Every frame on the bus is the frame of one of the eight commands. The accepted frames are those of
the taken offers, and of these the bus gets what no newer one replaced. -/
structure Traffic (p : Master × List Offer) : Prop where
  accepted : acceptedFrames p.1.node.trace = p.2.filterMap Offer.frame
  delivery : TxDelivery p.1.node
  commands : ∀ f ∈ sentFrames p.1.node.trace, ∃ cmdId, frameOf cmdId = some f

structure TrafficInv (p : Master × List Offer) : Prop where
  blind : Blind p.1.telemetry
  mail : TxMail p.1.node.unfiltered
  accepted : acceptedFrames p.1.node.trace = p.2.filterMap Offer.frame

theorem TxMail.of_unfiltered {s : Node} (h : TxMail s.unfiltered) : TxMail s :=
  h.of_same rfl (.inr rfl) rfl rfl rfl rfl

theorem TxMail.unfiltered {s : Node} (h : TxMail s) : TxMail s.unfiltered :=
  h.of_same rfl (.inr rfl) rfl rfl rfl rfl

theorem TrafficInv.traffic {p : Master × List Offer} (h : TrafficInv p) : Traffic p := by
  have hdelivery : TxDelivery p.1.node := h.mail.of_unfiltered.delivery
  refine ⟨h.accepted, hdelivery, ?_⟩
  intro f hf
  have hacc := hdelivery.inOrder.subset hf
  rw [h.accepted] at hacc
  obtain ⟨o, _, ho⟩ := List.mem_filterMap.mp hacc
  unfold Offer.frame at ho
  split at ho
  · exact ⟨o.cmdId, ho⟩
  · cases ho

/-- The transmit side of the node machine, step by step along the console. -/
theorem TxMail.masterStep {m m' : Master} {e : MasterEvent} (h : TxMail m.node.unfiltered)
    (hmove : MasterMove m e m') : TxMail m'.node.unfiltered := by
  obtain ⟨hquiet, hvisible⟩ := hmove.view
  cases hl : masterLabel m e with
  | none =>
    rw [hquiet hl]
    exact h
  | some ev => exact h.step (Machine.only_step.mp (hvisible ev hl)).2

theorem TrafficInv.step {p p' : Master × List Offer} {e : MasterEvent} (h : TrafficInv p)
    (hs : observedMaster.step p e = some p') : TrafficInv p' := by
  obtain ⟨hs, hoffers⟩ := Machine.withHistory_step.mp hs
  have hmove := masterStep_move h.blind hs
  refine ⟨hmove.blind h.blind, h.mail.masterStep hmove, ?_⟩
  rw [hmove.accepted, h.accepted, hoffers, List.filterMap_append]
  cases offerOf p.1 e with
  | none => rfl
  | some o => cases hf : o.frame <;> simp [hf]

theorem trafficInv_start {s : Node} (h : PowerOn s) : TrafficInv (systemInit s, []) where
  blind := blind_telemetryZero
  mail := (txMail_boot h).unfiltered
  accepted := by
    have htrace : (boot s).trace = [] := h.trace
    exact congrArg acceptedFrames htrace

/-- **Console traffic.** Whatever keys are pressed and whatever happens on the bus in between, only
command frames are sent: of the offers that the module took, in order and once each, those that no
newer one replaced. -/
theorem console_traffic {s : Node} (h : PowerOn s) (es : List MasterEvent) :
    observedMaster.Always Traffic (systemInit s, []) es :=
  Machine.always_mono (fun _ hi => TrafficInv.traffic hi)
    (Machine.always_of_invariant (fun _ _ _ hi hs => TrafficInv.step hi hs) (trafficInv_start h))

/-- A download with one bus step in the middle, and a key after it. -/
theorem console_traffic_download :
    observedMaster.Always Traffic (systemInit reset, [])
      [.key '0' blankTxElement, .download blankTxElement, .download blankTxElement, .busStep,
       .download blankTxElement, .download blankTxElement, .download blankTxElement, .busStep,
       .key '6' blankTxElement] :=
  console_traffic powerOn_reset _

/-! ## What is counted -/

/-- A query counts as executed even if the module refuses its frame. -/
def Offer.executed (o : Offer) : Bool := o.typed && (o.taken || isQuery o.cmdId)
def Offer.aborted (o : Offer) : Bool := o.typed && !(o.taken || isQuery o.cmdId)

/-- The id of the last offer that `p` picks out. -/
def lastOffered (p : Offer → Bool) (offers : List Offer) : Option Byte :=
  (offers.filter p).getLast?.map Offer.cmdId

/-- What the offers make of the counters `c`. -/
structure Counted (c : CmdCounters) (offers : List Offer) (c' : CmdCounters) : Prop where
  executed : c'.executedCmds = c.executedCmds + BitVec.ofNat 32 (offers.countP Offer.executed)
  aborted : c'.abortedCmds = c.abortedCmds + BitVec.ofNat 32 (offers.countP Offer.aborted)
  lastExecuted : c'.lastExecutedId = (lastOffered Offer.executed offers).getD c.lastExecutedId
  lastAborted : c'.lastAbortedId = (lastOffered Offer.aborted offers).getD c.lastAbortedId

theorem counted_nil (c : CmdCounters) : Counted c [] c where
  executed := (BitVec.add_zero _).symm
  aborted := (BitVec.add_zero _).symm
  lastExecuted := rfl
  lastAborted := rfl

theorem lastOffered_snoc (p : Offer → Bool) (offers : List Offer) (o : Offer) :
    lastOffered p (offers ++ [o]) = if p o then some o.cmdId else lastOffered p offers := by
  unfold lastOffered
  rw [List.filter_append]
  cases h : p o <;> simp [h]

/-- A query of `telemetry_get` is not counted. -/
theorem Counted.untyped {c c' : CmdCounters} {offers : List Offer} {o : Offer}
    (h : Counted c offers c') (ho : o.typed = false) : Counted c (offers ++ [o]) c' := by
  have hx : o.executed = false := by rw [Offer.executed, ho]; rfl
  have ha : o.aborted = false := by rw [Offer.aborted, ho]; rfl
  refine ⟨?_, ?_, ?_, ?_⟩
  · rw [h.executed, List.countP_append, List.countP_singleton, hx]
    rfl
  · rw [h.aborted, List.countP_append, List.countP_singleton, ha]
    rfl
  · rw [h.lastExecuted, lastOffered_snoc, hx]
    rfl
  · rw [h.lastAborted, lastOffered_snoc, ha]
    rfl

/-- A command that a key executes is counted on one side or the other. -/
theorem Counted.typed {c c' : CmdCounters} {offers : List Offer} {o : Offer} {status : StatusCode}
    (h : Counted c offers c') (ho : o.typed = true)
    (hstatus : status = .statusOk ↔ (o.taken || isQuery o.cmdId) = true) :
    Counted c (offers ++ [o]) (cmdAccount o.cmdId status c') := by
  by_cases hs : status = .statusOk
  · have hq : (o.taken || isQuery o.cmdId) = true := hstatus.mp hs
    have hx : o.executed = true := by rw [Offer.executed, ho, hq]; rfl
    have ha : o.aborted = false := by rw [Offer.aborted, ho, hq]; rfl
    rw [cmdAccount, if_pos hs]
    refine ⟨?_, ?_, ?_, ?_⟩
    · rw [h.executed, List.countP_append, List.countP_singleton, hx, if_pos rfl, BitVec.ofNat_add,
        ← BitVec.add_assoc]
    · rw [h.aborted, List.countP_append, List.countP_singleton, ha]
      rfl
    · rw [lastOffered_snoc, hx]
      rfl
    · rw [h.lastAborted, lastOffered_snoc, ha]
      rfl
  · have hq : (o.taken || isQuery o.cmdId) = false :=
      Bool.eq_false_iff.mpr fun hq => hs (hstatus.mpr hq)
    have hx : o.executed = false := by rw [Offer.executed, ho, hq]; rfl
    have ha : o.aborted = true := by rw [Offer.aborted, ho, hq]; rfl
    rw [cmdAccount, if_neg hs]
    refine ⟨?_, ?_, ?_, ?_⟩
    · rw [h.executed, List.countP_append, List.countP_singleton, hx]
      rfl
    · rw [h.aborted, List.countP_append, List.countP_singleton, ha, if_pos rfl, BitVec.ofNat_add,
        ← BitVec.add_assoc]
    · rw [h.lastExecuted, lastOffered_snoc, hx]
      rfl
    · rw [lastOffered_snoc, ha]
      rfl

/-- The status of a command that has a frame to send. -/
theorem Dispatched.status_iff {cmdId : Byte} {s s' : Node} {status : StatusCode}
    (h : Dispatched cmdId s status s') (hsends : (sentBy cmdId).isSome = true) :
    status = .statusOk ↔ (sendable s || isQuery cmdId) = true := by
  cases h with
  | silent hsent _ _ =>
    rw [hsent] at hsends
    cases hsends
  | accepted canId cmd hsent hok hstatus _ => simp [hok, hstatus]
  | refused canId cmd hsent hno hstatus _ =>
    rw [hno, hstatus]
    rfl

theorem execute_status_iff {stack : McanTxElement} {cmdId : Byte} {payload : Word}
    {counters counters' : CmdCounters} {s s' : Node} {status : StatusCode}
    (hsends : (sentBy cmdId).isSome = true)
    (h : commandsModuleExecute stack cmdId payload counters s = some (status, counters', s')) :
    status = .statusOk ↔ (sendable s || isQuery cmdId) = true := by
  obtain ⟨status1, s1, he, hd⟩ := commandsModuleExecute_some stack cmdId payload counters s
  rw [h] at he
  cases he
  exact hd.status_iff hsends

/-- A step counts its offer. -/
theorem MasterMove.counted {m m' : Master} {e : MasterEvent} {c : CmdCounters}
    {offers : List Offer} (h : MasterMove m e m') (hc : Counted c offers m.counters) :
    Counted c (offers ++ (offerOf m e).toList) m'.counters := by
  have hquiet : offerOf m e = none → Counted c (offers ++ (offerOf m e).toList) m.counters := by
    intro hnone
    rw [hnone, Option.toList_none, List.append_nil]
    exact hc
  cases h with
  | pressed key stack m' he hidle h =>
    subst he
    cases h with
    | printed texts download hcmd _ _ => exact hquiet (offerOf_printed hcmd)
    | executed cmdId text status s' hcmd _ hrun _ =>
      rw [offerOf_key hcmd]
      exact hc.typed rfl (execute_status_iff (keyCommand_sends hcmd) hrun)
  | downloaded stack m' he h =>
    subst he
    cases h with
    | queried q rest s' hdownload _ =>
      rw [offerOf_queried hdownload]
      exact hc.untyped rfl
    | reported hdownload => exact hquiet (offerOf_reported hdownload)
  | ignored hoffer _ => exact hquiet (offerOf_none hoffer)
  | hardware ev s' hoffer _ _ _ => exact hquiet (offerOf_none hoffer)

/-- The counters, while the telemetry knows nothing. -/
structure CountedInv (c : CmdCounters) (p : Master × List Offer) : Prop where
  blind : Blind p.1.telemetry
  counted : Counted c p.2 p.1.counters

theorem CountedInv.step {c : CmdCounters} {p p' : Master × List Offer} {e : MasterEvent}
    (h : CountedInv c p) (hs : observedMaster.step p e = some p') : CountedInv c p' := by
  obtain ⟨hs, hoffers⟩ := Machine.withHistory_step.mp hs
  have hmove := masterStep_move h.blind hs
  refine ⟨hmove.blind h.blind, ?_⟩
  rw [hoffers]
  exact hmove.counted h.counted

/-- **Console counters.** In every run, with interrupts and downloads anywhere between the keys, the
executed counter is the number of command keys whose frame was taken or that only ask, the aborted
counter that of all the others, and a download counts nothing. -/
theorem console_counters (s : Node) (es : List MasterEvent) :
    observedMaster.Always (fun p => Counted cmdInit p.2 p.1.counters) (systemInit s, []) es :=
  Machine.always_mono (fun _ hi => CountedInv.counted hi)
    (Machine.always_of_invariant (fun _ _ _ hi hs => CountedInv.step hi hs)
      ⟨blind_telemetryZero, counted_nil cmdInit⟩)

/-! ## What is printed -/

/-- The telemetry is as at power-on, and no text that was printed says that an LED is on. -/
structure Dark (m : Master) : Prop where
  blind : Blind m.telemetry
  console : ledText true ∉ m.console

theorem telemetryReport_dark {telemetry : Telemetry} (h : Blind telemetry) :
    ledText true ∉ telemetryReport telemetry := by
  have hoff : ledText true ≠ ledText false := by decide
  have htext : ∀ {first : String} (v : Word), first.toList.head? ≠ none →
      first.toList.head? ≠ some 'O' → ledText true ≠ first ++ formatU v ++ " \n\r" := by
    intro first v hne hO
    obtain ⟨c, hc⟩ := Option.ne_none_iff_exists'.mp hne
    rw [String.append_assoc]
    exact (Master.append_ne_led _ hc fun h => hO (h ▸ hc)).symm
  simp only [telemetryReport, h.subsystem1, h.subsystem2, List.mem_cons, List.not_mem_nil, or_false]
  rintro (ht | ht | ht | ht | ht | ht | ht | ht | ht | ht)
  · exact absurd ht (by decide)
  · exact hoff ht
  · exact htext _ (by decide) (by decide) ht
  · exact absurd ht (by decide)
  · exact hoff ht
  all_goals exact htext _ (by decide) (by decide) ht

theorem Dark.step {m m' : Master} {e : MasterEvent} (h : Dark m)
    (hs : masterMachine.step m e = some m') : Dark m' := by
  have hmove := masterStep_move h.blind hs
  refine ⟨hmove.blind h.blind, ?_⟩
  cases hmove with
  | pressed key stack m' he hidle hp =>
    cases hp with
    | printed texts download _ htexts _ =>
      exact fun hmem => (List.mem_append.mp hmem).elim h.console fun ht => htexts _ ht rfl
    | executed cmdId text status s' _ htext _ _ =>
      exact fun hmem => (List.mem_append.mp hmem).elim h.console fun ht =>
        htext (List.mem_singleton.mp ht).symm
  | downloaded stack m' he hd =>
    cases hd with
    | queried => exact h.console
    | reported =>
      exact fun hmem => (List.mem_append.mp hmem).elim h.console
        (telemetryReport_dark (h.blind.commands _))
  | ignored => exact h.console
  | hardware => exact h.console

/-- **Blind telemetry.** Whatever the subsystems put on the bus, the telemetry never learns anything of
them: no download of any run reports an LED as on. -/
theorem console_dark (s : Node) (es : List MasterEvent) :
    masterMachine.Always Dark (systemInit s) es := by
  refine Machine.always_of_invariant (fun _ _ _ hi hs => hi.step hs) ⟨blind_telemetryZero, ?_⟩
  intro hmem
  exact Master.commandsMenu_ne_led (List.mem_singleton.mp hmem).symm

/-! ## After a bus-off -/

/-- Since the state `m` nothing was received, accepted or sent. The keys that turn an LED are counted
as aborted, and those that query something still as executed. -/
structure Silenced (m : Master) (p : Master × List Offer) : Prop where
  traffic : traffic p.1.node.trace = traffic m.node.trace
  executed : p.1.counters.executedCmds = m.counters.executedCmds +
    BitVec.ofNat 32 (p.2.countP fun o => o.typed && isQuery o.cmdId)
  aborted : p.1.counters.abortedCmds = m.counters.abortedCmds +
    BitVec.ofNat 32 (p.2.countP fun o => o.typed && !isQuery o.cmdId)

structure SilentInv (m : Master) (p : Master × List Offer) : Prop where
  parked : Parked p.1.node.unfiltered
  traffic : traffic p.1.node.trace = CanNet.traffic m.node.trace
  counts : CountedInv m.counters p
  refused : ∀ o ∈ p.2, o.taken = false

theorem SilentInv.silenced {m : Master} {p : Master × List Offer} (h : SilentInv m p) :
    Silenced m p := by
  refine ⟨h.traffic, ?_, ?_⟩
  · rw [h.counts.counted.executed]
    congr 2
    refine List.countP_congr fun o ho => ?_
    rw [Offer.executed, h.refused o ho, Bool.false_or]
  · rw [h.counts.counted.aborted]
    congr 2
    refine List.countP_congr fun o ho => ?_
    rw [Offer.aborted, h.refused o ho, Bool.false_or]

theorem SilentInv.step {m : Master} {p p' : Master × List Offer} {e : MasterEvent}
    (h : SilentInv m p) (hs : observedMaster.step p e = some p') : SilentInv m p' := by
  have hcounts := h.counts.step hs
  obtain ⟨hs, hoffers⟩ := Machine.withHistory_step.mp hs
  obtain ⟨hquiet, hvisible⟩ := (masterStep_move h.counts.blind hs).view
  have hnode : Parked p'.1.node.unfiltered ∧
      CanNet.traffic p'.1.node.unfiltered.trace = CanNet.traffic p.1.node.unfiltered.trace := by
    cases hl : masterLabel p.1 e with
    | none =>
      rw [hquiet hl]
      exact ⟨h.parked, rfl⟩
    | some ev =>
      have hstep := hvisible ev hl
      exact ⟨h.parked.step (Machine.only_step.mp hstep).2, h.parked.traffic hstep⟩
  refine ⟨hnode.1, hnode.2.trans h.traffic, hcounts, ?_⟩
  intro o ho
  rw [hoffers] at ho
  rcases List.mem_append.mp ho with ho | ho
  · exact h.refused o ho
  · obtain ⟨cmdId, _, rfl⟩ := Option.map_eq_some_iff.mp (Option.mem_toList.mp ho)
    have hcce : p.1.node.mcan.cceBit = true := h.parked.cce
    simp [sendable, hcce]

theorem blind_run (s : Node) (es : List MasterEvent) :
    masterMachine.Always (fun m => Blind m.telemetry) (systemInit s) es :=
  Machine.always_of_invariant (fun _ _ _ hi hs => (masterStep_move hi hs).blind hi)
    blind_telemetryZero

/-- **After a bus-off.** Once the handler has answered a bus-off, no key, download, frame or interrupt
ever brings the program back on the bus, and the counters go on. -/
theorem console_silent_after_busOff {s : Node} {pre : List MasterEvent} {m m' : Master}
    (hrun : masterMachine.run (systemInit s) pre = some m)
    (hoff : has m.node.mcan.ir mcanBusOff = true)
    (hhandled : masterMachine.step m .handler = some m') (es : List MasterEvent) :
    observedMaster.Always (Silenced m') (m', []) es := by
  have hblind : Blind m.telemetry :=
    Machine.always_iff_prefix.mp (blind_run s pre) pre (List.prefix_refl pre) m hrun
  cases hhandled
  obtain ⟨hi, hc⟩ := handler_busOff hoff
  exact Machine.always_mono (fun _ hs => SilentInv.silenced hs)
    (Machine.always_of_invariant (fun _ _ _ hs hstep => SilentInv.step hs hstep)
      ⟨⟨hi, hc⟩, rfl, ⟨hblind, counted_nil _⟩, nofun⟩)

/-- A bus-off right after start-up, then an LED key and a download. -/
theorem console_silent_after_busOff_keys :
    ∃ m m', masterMachine.run (systemInit reset) [.busOff] = some m ∧
      masterMachine.step m .handler = some m' ∧
      observedMaster.Always (Silenced m') (m', [])
        [.key '6' blankTxElement, .key '0' blankTxElement, .download blankTxElement] := by
  have hrun : masterMachine.run (systemInit reset) [.busOff] =
      some { systemInit reset with node := (boot reset).onMcan Mcan.goBusOff } := rfl
  exact ⟨_, _, hrun, rfl, console_silent_after_busOff hrun (by decide) rfl _⟩

end CanNet
